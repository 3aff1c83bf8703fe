import HftFixEngine.Arena.ProtocolArena
import HftFixEngine.Engine.Exchange

set_option autoImplicit false

namespace HftFixEngine.Engine

open Protocol Matching Arena

namespace Exchange

-- An exchange looks neither at the client's id of an order nor at its latency.
def bareOrder (order : ParsedOrder) : ParsedOrder := { order with clOrdId := [], latencyNs := 0 }

theorem bareOrder_received (protocol : ProtocolType) (packet : Packet) :
    bareOrder (packet.order protocol) =
      bareOrder (ProtocolParser.parseInPlace protocol packet.payload) := rfl

def bare (exchange : Exchange) : Exchange :=
  { exchange with taken := exchange.taken.map bareOrder }

theorem takes_bare (exchange : Exchange) (order : ParsedOrder) :
    exchange.bare.Takes (bareOrder order) ↔ exchange.Takes order := by
  have limits : WithinLimits (bareOrder order) ↔ WithinLimits order :=
    ⟨fun within => { within with }, fun within => { within with }⟩
  exact and_congr_right fun _ => and_congr_right fun _ => limits

theorem receive_bare (exchange : Exchange) (order : ParsedOrder) :
    exchange.bare.receive (bareOrder order) = (exchange.receive order).bare := by
  unfold receive
  by_cases takes : exchange.Takes order
  next =>
    rw [if_pos ((takes_bare exchange order).mpr takes), if_pos takes]
    simp only [bare, List.map_append, List.map_cons, List.map_nil]
    rfl
  next =>
    rw [if_neg (mt (takes_bare exchange order).mp takes), if_neg takes]
    rfl

theorem after_bare (orders : List ParsedOrder) :
    after (orders.map bareOrder) = (after orders).bare := by
  induction orders using List.reverseRecOn with
  | nil => rfl
  | append_singleton orders order ih =>
    rw [List.map_append, after, List.foldl_append, after, List.foldl_append]
    change receive (after (orders.map bareOrder)) (bareOrder order) =
      (receive (after orders) order).bare
    rw [ih, receive_bare]

end Exchange

structure Sent where
  encoded : Encoded
  latencyNs : Nat
  currentTs : Nat
  staleId : Bytes

namespace Sent

def packet (type : ProtocolType) (sent : Sent) : Packet :=
  { payload := some (sent.encoded.packet type)
    latencyNs := sent.latencyNs
    currentTs := sent.currentTs
    staleId := sent.staleId }

def order (sent : Sent) : ParsedOrder := sent.encoded.order.parsed []

variable (type : ProtocolType) (sent : Sent)

theorem bareOrder_packet : Exchange.bareOrder ((sent.packet type).order type) = sent.order := by
  obtain ⟨clOrdId, parsed⟩ := sent.encoded.parse_packet type
  rw [Exchange.bareOrder_received]
  exact congrArg Exchange.bareOrder parsed

-- No encoding of an order has a price below zero.
theorem near : farBelow ((sent.packet type).order type) = false := by
  have price := congrArg ParsedOrder.price (sent.bareOrder_packet type)
  change ((sent.packet type).order type).price = (sent.encoded.order.priceScaled : Int) at price
  simp only [farBelow, price, referencePrice, decide_eq_false_iff_not]
  omega

end Sent

theorem encoded_stream_reaches_exchange (type : ProtocolType) (stream : List Sent) :
    let engine := HftOrderBookEngine.run type (stream.map (Sent.packet type))
    let exchange := Exchange.after (stream.map Sent.order)
    engine.submitted.map Exchange.bareOrder = exchange.taken ∧
      engine.session.book.live = exchange.book ∧
      TrueDeck exchange.book (getTopOfBookSnapshot engine.session.book) := by
  intro engine exchange
  have near : ∀ packet, packet ∈ stream.map (Sent.packet type) →
      farBelow (packet.order type) = false := by
    intro packet member
    obtain ⟨sent, -, rfl⟩ := List.mem_map.mp member
    exact sent.near type
  have orders : stream.map Sent.order =
      ((stream.map (Sent.packet type)).map (Packet.order type)).map Exchange.bareOrder := by
    rw [List.map_map, List.map_map]
    exact List.map_congr_left fun sent _ => (sent.bareOrder_packet type).symm
  have bare : exchange =
      (Exchange.after ((stream.map (Sent.packet type)).map (Packet.order type))).bare := by
    rw [← Exchange.after_bare, ← orders]
  obtain ⟨submitted, book, deck⟩ := engine_refines_exchange type _ near
  rw [bare]
  exact ⟨congrArg _ submitted, book, deck⟩

end HftFixEngine.Engine
