import HftFixEngine.Networking.Dataset
import HftFixEngine.Protocol.WireFormats
import Mathlib.Data.List.Forall2

set_option autoImplicit false

namespace HftFixEngine.Networking

open Protocol Word

inductive PackedPacket where
  | ouch (packet : OuchEnterOrderPacket)
  | sbe (packet : SbeNewOrderSinglePacket) (header : SbeHeader) (timeInForce : UInt8)

namespace PackedPacket

def type : PackedPacket → ProtocolType
  | .ouch _ => .ouch
  | .sbe _ _ _ => .sbe

def bytes : PackedPacket → Bytes
  | .ouch packet => packet.bytes
  | .sbe packet header timeInForce => packet.framed header timeInForce

def seqNum : PackedPacket → Nat
  | .ouch packet => packet.seqNum % 2 ^ 64
  | .sbe packet _ _ => packet.seqNum % 2 ^ 64

def clOrdId : PackedPacket → Bytes
  | .ouch packet => trimRight packet.clOrdId
  | .sbe packet _ _ => toChars (packet.clOrdIdNum % 2 ^ 64)

def symbol : PackedPacket → Bytes
  | .ouch packet => trimRight packet.symbol
  | .sbe packet _ _ =>
    trimRight (packet.symbol.take 8 ++ List.replicate (8 - packet.symbol.length) 32)

-- 'B' or '1' for buy, 'S' or '2' for sell; 1 = Buy, 2 = Sell. Any other byte names no side.
def side? : PackedPacket → Option Int
  | .ouch packet =>
    if packet.side ∈ [66, 49] then some 1 else if packet.side ∈ [83, 50] then some 2 else none
  | .sbe packet _ _ =>
    if packet.side = 1 then some 1 else if packet.side = 2 then some 2 else none

def quantity : PackedPacket → Nat
  | .ouch packet => packet.quantity % 2 ^ 32
  | .sbe packet _ _ => packet.quantity % 2 ^ 32

def priceScaled : PackedPacket → Nat
  | .ouch packet => packet.priceScaled % 2 ^ 32
  | .sbe packet _ _ => packet.priceScaled % 2 ^ 64

structure DecodesTo (packet : PackedPacket) (order : ParsedOrder) : Prop where
  msgType : order.msgType = [68]
  seqNum : order.seqNum = packet.seqNum
  clOrdId : order.clOrdId = packet.clOrdId
  symbol : order.symbol = packet.symbol
  side : packet.side? = some order.side
  quantity : order.quantity = packet.quantity
  price : order.price = packet.priceScaled

theorem length_bytes (packet : PackedPacket) : packet.bytes.length = 46 := by
  cases packet with
  | ouch packet => exact packet.length_bytes
  | sbe packet header timeInForce => exact packet.length_framed header timeInForce

theorem received_ouch (packet : OuchEnterOrderPacket) (stale : Bytes) :
    ProtocolParser.received .ouch (some packet.bytes) stale = ProtocolParser.parseOuch packet.bytes :=
  (ProtocolParser.received_of_ne_sbe _ stale (by decide)).trans packet.parseInPlace_bytes

theorem received_sbe_clOrdId (packet : SbeNewOrderSinglePacket) (header : SbeHeader)
    (timeInForce : UInt8) (stale : Bytes) :
    (ProtocolParser.received .sbe (some (packet.framed header timeInForce)) stale).clOrdId = stale := by
  simp [ProtocolParser.received, packet.parseInPlace_framed, packet.parseSbe_framed]

theorem decodesTo_iff (packet : PackedPacket) :
    (∀ stale, packet.DecodesTo (ProtocolParser.received packet.type (some packet.bytes) stale)) ↔
      packet.type = .ouch ∧ packet.side?.isSome ∧ packet.quantity < 2 ^ 31 := by
  cases packet with
  | sbe packet header timeInForce =>
    refine iff_of_false ?_ (fun meets => ProtocolType.noConfusion meets.1)
    intro decodes
    have shown := (decodes []).clOrdId
    rw [bytes, type, received_sbe_clOrdId] at shown
    exact toChars_ne_nil _ shown.symm
  | ouch packet =>
    have fits : wrapInt32 (packet.quantity % 2 ^ 32 : Nat) = (packet.quantity % 2 ^ 32 : Nat) ↔
        packet.quantity % 2 ^ 32 < 2 ^ 31 := wrapInt32_eq_iff (by omega)
    have wide : packet.quantity % 256 ^ 4 = packet.quantity % 2 ^ 32 := by omega
    have own : quantity (.ouch packet) = packet.quantity % 2 ^ 32 := by rw [quantity]
    simp only [bytes, type, received_ouch, packet.parseOuch_bytes, forall_const, true_and, wide, own,
      -Nat.reducePow]
    constructor
    case mp =>
      intro decodes
      have same := decodes.quantity
      simp only [own, -Nat.reducePow] at same
      exact ⟨Option.isSome_iff_exists.mpr ⟨_, decodes.side⟩, fits.mp same⟩
    case mpr =>
      rintro ⟨known, quantity⟩
      constructor
      case side =>
        simp only [side?, List.mem_cons, List.not_mem_nil, or_false] at known ⊢
        split
        next => rfl
        next other =>
          rw [if_neg other] at known
          split at known
          next sell => rw [if_pos sell]
          next => simp at known
      case quantity =>
        simp only [own, -Nat.reducePow]
        exact fits.mpr quantity
      all_goals rfl

theorem received_ne_default (packet : PackedPacket) (stale : Bytes) :
    ProtocolParser.received packet.type (some packet.bytes) stale ≠ {} := by
  have newOrder :
      (ProtocolParser.received packet.type (some packet.bytes) stale).msgTypeChar = 68 := by
    cases packet with
    | ouch packet => rw [bytes, type, received_ouch, packet.parseOuch_bytes]
    | sbe packet header timeInForce =>
      rw [bytes, type, ProtocolParser.received, packet.parseInPlace_framed, packet.parseSbe_framed]
  intro default
  rw [default] at newOrder
  exact absurd newOrder (by decide)

end PackedPacket

theorem field_flatten {size : Nat} (pieces : List Bytes) (trailing : Bytes)
    (long : ∀ piece ∈ pieces, piece.length = size) :
    ((List.range pieces.length).map fun i => field (pieces.flatten ++ trailing) (i * size) size) =
      pieces := by
  induction pieces with
  | nil => rfl
  | cons piece pieces ih =>
    obtain ⟨here, later⟩ := List.forall_mem_cons.mp long
    rw [List.length_cons, List.range_succ_eq_map, List.map_cons, List.map_map, List.flatten_cons,
      List.append_assoc, Nat.zero_mul, field_here _ _ _ here]
    congr 1
    refine Eq.trans (List.map_congr_left ?_) (ih later)
    intro i _
    have past : piece.length ≤ (i + 1) * size := by
      rw [here, Nat.succ_mul]
      omega
    rw [Function.comp_apply, field_past _ _ _ _ past, here, Nat.succ_mul, Nat.add_sub_cancel]

namespace Dataset

variable {file : Dataset} {type : ProtocolType} {packets : List PackedPacket} {trailing : Bytes}

def Holds (file : Dataset) (packets : List PackedPacket) (trailing : Bytes) : Prop :=
  file.content = (packets.map PackedPacket.bytes).flatten ++ trailing

theorem Holds.length (holds : file.Holds packets trailing) :
    file.content.length = packets.length * 46 + trailing.length := by
  have each : packets.map (List.length ∘ PackedPacket.bytes) = packets.map fun _ => 46 :=
    List.map_congr_left fun packet _ => packet.length_bytes
  rw [show file.content = _ from holds, List.length_append, List.length_flatten, List.map_map, each,
    List.map_const', List.sum_replicate_nat]

theorem loadedMessages_binary (binary : UdpFixProducer.isBinary file = true) :
    UdpFixProducer.loadedMessages file =
      (List.range (file.content.length / UdpFixProducer.packetSize file.content.length)).map fun i =>
        field file.content (i * UdpFixProducer.packetSize file.content.length)
          (UdpFixProducer.packetSize file.content.length) := by
  simp only [UdpFixProducer.loadedMessages, binary, if_true, UdpFixProducer.loadPackets_eq]

theorem loadedMessages_whole (binary : UdpFixProducer.isBinary file = true)
    (holds : file.Holds packets []) :
    UdpFixProducer.loadedMessages file = packets.map PackedPacket.bytes := by
  have length : file.content.length = packets.length * 46 := holds.length
  have size : UdpFixProducer.packetSize file.content.length = 46 := by
    rw [length, UdpFixProducer.packetSize, if_pos (Nat.mul_mod_left _ _)]
  have count : file.content.length / 46 = (packets.map PackedPacket.bytes).length := by
    rw [length, Nat.mul_div_cancel _ (by decide), List.length_map]
  rw [loadedMessages_binary binary, size, count, show file.content = _ from holds]
  exact field_flatten _ [] (List.forall_mem_map.mpr fun packet _ => packet.length_bytes)

-- A slice of 44 bytes is no packet.
theorem bytes_notMem_loadedMessages (binary : UdpFixProducer.isBinary file = true)
    (holds : file.Holds packets trailing) (short : trailing.length < 46) (more : trailing ≠ [])
    (packet : PackedPacket) : packet.bytes ∉ UdpFixProducer.loadedMessages file := by
  have length := holds.length
  have positive := List.length_pos_iff.mpr more
  have size : UdpFixProducer.packetSize file.content.length = 44 := by
    rw [UdpFixProducer.packetSize, if_neg (by omega)]
  rw [loadedMessages_binary binary, size]
  intro member
  obtain ⟨i, -, slice⟩ := List.mem_map.mp member
  have short := List.length_take_le 44 (file.content.drop (i * 44))
  rw [← field, slice, packet.length_bytes] at short
  omega

theorem slices_packets_iff (nonempty : packets ≠ []) (same : ∀ packet ∈ packets, packet.type = type)
    (short : trailing.length < 46) (binary : UdpFixProducer.isBinary file = true)
    (holds : file.Holds packets trailing) :
    ((UdpFixProducer.loadedMessages file).take packets.length = packets.map PackedPacket.bytes ∧
        ∀ stale,
          List.Forall₂ PackedPacket.DecodesTo packets
              (((UdpFixProducer.loadedMessages file).take packets.length).map
                fun slice => ProtocolParser.received type (some slice) stale) ∧
            ∀ slice ∈ (UdpFixProducer.loadedMessages file).take packets.length,
              ProtocolParser.received type (some slice) stale ≠ {}) ↔
      trailing = [] ∧ type = .ouch ∧
        ∀ packet ∈ packets, packet.side?.isSome ∧ packet.quantity < 2 ^ 31 := by
  have decoded (first : (UdpFixProducer.loadedMessages file).take packets.length =
      packets.map PackedPacket.bytes) (stale : Bytes) :
      List.Forall₂ PackedPacket.DecodesTo packets
          (((UdpFixProducer.loadedMessages file).take packets.length).map
            fun slice => ProtocolParser.received type (some slice) stale) ↔
        ∀ packet ∈ packets,
          packet.DecodesTo (ProtocolParser.received packet.type (some packet.bytes) stale) := by
    rw [first, List.map_map, List.forall₂_map_right_iff, List.forall₂_same]
    exact forall₂_congr fun packet member => by rw [same packet member]; rfl
  constructor
  case mp =>
    rintro ⟨first, parsed⟩
    obtain ⟨head, later, rfl⟩ := List.exists_cons_of_ne_nil nonempty
    have each : ∀ packet ∈ head :: later, packet.type = .ouch ∧ packet.side?.isSome ∧
        packet.quantity < 2 ^ 31 := by
      intro packet member
      exact packet.decodesTo_iff.mp fun stale => (decoded first stale).mp (parsed stale).1 packet member
    refine ⟨?_, ?_, fun packet member => (each packet member).2⟩
    next =>
      by_contra more
      have member : head.bytes ∈
          (UdpFixProducer.loadedMessages file).take (head :: later).length := by
        rw [first]
        exact List.mem_cons_self
      exact bytes_notMem_loadedMessages binary holds short more head (List.mem_of_mem_take member)
    next => exact (same head List.mem_cons_self).symm.trans (each head List.mem_cons_self).1
  case mpr =>
    rintro ⟨rfl, ouch, plain⟩
    have whole : (UdpFixProducer.loadedMessages file).take packets.length =
        packets.map PackedPacket.bytes := by
      rw [loadedMessages_whole binary holds, List.take_of_length_le (by rw [List.length_map])]
    refine ⟨whole, fun stale => ⟨(decoded whole stale).mpr ?_, ?_⟩⟩
    next =>
      intro packet member
      exact packet.decodesTo_iff.mpr ⟨(same packet member).trans ouch, plain packet member⟩ stale
    next =>
      rw [whole, List.forall_mem_map]
      intro packet member
      rw [← same packet member]
      exact packet.received_ne_default stale

def ouchOrder : PackedPacket :=
  .ouch
    { seqNum := 7
      clOrdId := ascii "ORD_7         "
      side := 66
      quantity := 100
      priceScaled := 35850000
      symbol := ascii "PETR4 "
      timestampNs := 0
      clOrdId_length := by decide
      symbol_length := by decide }

def ouchFile : Dataset where
  path := ascii "ouch_messages.data"
  content := ouchOrder.bytes
  named := by decide +kernel
  long := by
    rw [ouchOrder.length_bytes]
    decide

theorem slices_ouchFile :
    (UdpFixProducer.loadedMessages ouchFile).take 1 = [ouchOrder.bytes] ∧
      ∀ stale, List.Forall₂ PackedPacket.DecodesTo [ouchOrder]
        (((UdpFixProducer.loadedMessages ouchFile).take 1).map
          fun slice => ProtocolParser.received .ouch (some slice) stale) := by
  have binary : UdpFixProducer.isBinary ouchFile = true := by decide +kernel
  have holds : ouchFile.Holds [ouchOrder] [] := by simp [Holds, ouchFile]
  have framed := (slices_packets_iff (List.cons_ne_nil ouchOrder [])
    (List.forall_mem_singleton.mpr rfl) (by decide) binary holds).mpr
      ⟨rfl, rfl, List.forall_mem_singleton.mpr (by decide +kernel)⟩
  exact ⟨framed.1, fun stale => (framed.2 stale).1⟩

def sbeOrder : PackedPacket :=
  .sbe
    { seqNum := 7
      clOrdIdNum := 42
      priceScaled := 35850000
      quantity := 100
      side := 1
      symbol := ascii "PETR4" }
    { blockLength := 36, templateId := 514, schemaId := 1, version := 1 } 0

def sbeFile (trailing : Bytes) : Dataset where
  path := ascii "sbe_messages.data"
  content := sbeOrder.bytes ++ trailing
  named := by decide +kernel
  long := by
    rw [List.length_append, sbeOrder.length_bytes]
    omega

-- With the first byte of a second packet behind it, the packet is cut and parsed to nothing.
theorem slices_sbeFile_trailing :
    UdpFixProducer.isBinary (sbeFile [36]) = true ∧
      (UdpFixProducer.loadedMessages (sbeFile [36])).take 1 ≠ [sbeOrder.bytes] ∧
      ∀ stale, (UdpFixProducer.loadedMessages (sbeFile [36])).map
        (fun slice => ProtocolParser.received .sbe (some slice) stale) = [{}] := by
  have loaded : UdpFixProducer.loadedMessages (sbeFile [36]) = [sbeOrder.bytes.take 44] := by
    decide +kernel
  refine ⟨by decide +kernel, by decide +kernel, fun stale => ?_⟩
  rw [loaded]
  rfl

end Dataset

end HftFixEngine.Networking
