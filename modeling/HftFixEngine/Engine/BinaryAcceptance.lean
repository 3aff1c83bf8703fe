import HftFixEngine.Engine.HftOrderBookEngine
import HftFixEngine.Engine.MatchingWorker
import HftFixEngine.Protocol.WireFormats

set_option autoImplicit false

namespace HftFixEngine.Engine

open Protocol Matching Word

inductive BinaryProtocol where
  | ouch
  | sbe
  deriving DecidableEq, Repr

namespace BinaryProtocol

def type : BinaryProtocol → ProtocolType
  | .ouch => .ouch
  | .sbe => .sbe

def packetSize : BinaryProtocol → Nat
  | .ouch => ProtocolParser.ouchEnterOrderPacketSize
  | .sbe => ProtocolParser.sbeNewOrderSinglePacketSize

-- 'O' = Enter Order; 514 = NewOrderSingle.
def namesOrder : BinaryProtocol → Bytes → Prop
  | .ouch, packet => field packet 0 1 = [79]
  | .sbe, packet => littleEndian (field packet 2 2) = 514

-- 'B' or '1' for buy, 'S' or '2' for sell; 1 = Buy, 2 = Sell.
def namesSide : BinaryProtocol → Bytes → Prop
  | .ouch, packet => (field packet 23 1).headD 0 ∈ [66, 49, 83, 50]
  | .sbe, packet => (field packet 36 1).headD 0 ∈ [1, 2]

def quantity : BinaryProtocol → Bytes → Nat
  | .ouch, packet => littleEndian (field packet 24 4)
  | .sbe, packet => littleEndian (field packet 32 4)

def priceScaled : BinaryProtocol → Bytes → Nat
  | .ouch, packet => littleEndian (field packet 28 4)
  | .sbe, packet => littleEndian (field packet 24 8)

instance (protocol : BinaryProtocol) (packet : Bytes) : Decidable (protocol.namesOrder packet) := by
  cases protocol <;> exact inferInstanceAs (Decidable (_ = _))

instance (protocol : BinaryProtocol) (packet : Bytes) : Decidable (protocol.namesSide packet) := by
  cases protocol <;> exact inferInstanceAs (Decidable (_ ∈ _))

def packetOf (payload : Option Bytes) : Bytes := payload.getD []

structure Valid (protocol : BinaryProtocol) (payload : Option Bytes) : Prop where
  long : protocol.packetSize ≤ (packetOf payload).length
  namesOrder : protocol.namesOrder (packetOf payload)
  namesSide : protocol.namesSide (packetOf payload)

structure AcceptsOnly (protocol : BinaryProtocol) (payload : Option Bytes) : Prop where
  valid : (ProtocolParser.parseInPlace protocol.type payload).msgTypeChar = 68 →
    protocol.Valid payload
  numbers : (ProtocolParser.parseInPlace protocol.type payload).msgTypeChar = 68 →
    (ProtocolParser.parseInPlace protocol.type payload).quantity =
        protocol.quantity (packetOf payload) ∧
      (ProtocolParser.parseInPlace protocol.type payload).price =
        protocol.priceScaled (packetOf payload)
  engineIdle : ¬ protocol.Valid payload →
    ∀ (engine : HftOrderBookEngine) (packet : Packet), engine.protocolType = protocol.type →
      packet.payload = payload →
      (engine.step packet).submitted = engine.submitted ∧
        (engine.step packet).session = engine.session
  workerIdle : ¬ protocol.Valid payload →
    ∀ (worker : MatchingWorker) (packet : Packet), worker.protocolType = protocol.type →
      packet.payload = payload →
      (worker.step packet).submitted = worker.submitted ∧
        (worker.step packet).matchingEngine = worker.matchingEngine

def Meets (protocol : BinaryProtocol) (payload : Option Bytes) : Prop :=
  (packetOf payload).length < protocol.packetSize ∨
    protocol.namesOrder (packetOf payload) ∧ protocol.namesSide (packetOf payload) ∧
      protocol.quantity (packetOf payload) < 2 ^ 31 ∧
      protocol.priceScaled (packetOf payload) < 2 ^ 63

section Parse

variable {protocol : BinaryProtocol} {payload : Option Bytes}

theorem parse_short (short : (packetOf payload).length < protocol.packetSize) :
    ProtocolParser.parseInPlace protocol.type payload = {} := by
  cases payload with
  | none => rfl
  | some bytes =>
    change bytes.length < _ at short
    cases protocol <;> simp only [ProtocolParser.parseInPlace, type, packetSize] at short ⊢ <;>
      simp [short]

theorem parse_long (long : protocol.packetSize ≤ (packetOf payload).length) :
    let order := ProtocolParser.parseInPlace protocol.type payload
    order.msgTypeChar = 68 ∧ order.quantity = wrapInt32 (protocol.quantity (packetOf payload)) ∧
      order.price = wrapInt64 (protocol.priceScaled (packetOf payload)) := by
  cases payload with
  | none => cases protocol <;> exact absurd long (by decide)
  | some bytes =>
    cases protocol with
    | ouch =>
      change 46 ≤ bytes.length at long
      have parsed : ProtocolParser.parseInPlace .ouch (some bytes) =
          ProtocolParser.parseOuch bytes := by
        rw [ProtocolParser.parseInPlace, if_neg (by omega)]
        exact if_neg (Nat.not_lt.mpr long)
      have price : InInt64 (littleEndian (field bytes 28 4) : Int) := by
        have bound := littleEndian_field_lt bytes 28 4
        simp only [InInt64]
        omega
      simp only [type, parsed, ProtocolParser.parseOuch, quantity, priceScaled, packetOf,
        Option.getD_some, true_and]
      exact (wrapInt64_of_inInt64 price).symm
    | sbe =>
      change 46 ≤ bytes.length at long
      have parsed : ProtocolParser.parseInPlace .sbe (some bytes) =
          ProtocolParser.parseSbe bytes := by
        rw [ProtocolParser.parseInPlace, if_neg (by omega)]
        exact if_neg (Nat.not_lt.mpr long)
      simp only [type, parsed, ProtocolParser.parseSbe, quantity, priceScaled, packetOf,
        Option.getD_some, and_self]

end Parse

end BinaryProtocol

theorem Screening.not_admitted_of_type {screening : Screening}
    (other : screening.order.msgTypeChar ≠ 68) : screening.admitted = false := by
  simp [admitted, other]

theorem HftOrderBookEngine.step_of_not_admitted (engine : HftOrderBookEngine) (packet : Packet)
    (refused : (engine.ingress.screen engine.protocolType packet).admitted = false) :
    (engine.step packet).submitted = engine.submitted ∧
      (engine.step packet).session = engine.session := by
  rcases engine.step_cases packet with ⟨-, step⟩ | ⟨telemetry, step⟩
  next =>
    rw [step]
    exact ⟨rfl, rfl⟩
  next =>
    rw [step, refused]
    exact ⟨rfl, rfl⟩

theorem MatchingWorker.step_of_not_admitted (worker : MatchingWorker) (packet : Packet)
    (refused : (worker.ingress.screen worker.protocolType packet).admitted = false) :
    (worker.step packet).submitted = worker.submitted ∧
      (worker.step packet).matchingEngine = worker.matchingEngine := by
  cases going : worker.stopped with
  | true =>
    rw [worker.step_of_stopped packet going]
    exact ⟨rfl, rfl⟩
  | false =>
    rcases worker.step_cases packet going with ⟨-, step⟩ | ⟨telemetry, stopped, step⟩
    next =>
      rw [step]
      exact ⟨rfl, rfl⟩
    next =>
      rw [step, refused]
      exact ⟨rfl, rfl⟩

namespace BinaryProtocol

theorem quantity_lt (protocol : BinaryProtocol) (packet : Bytes) :
    protocol.quantity packet < 2 ^ 32 := by
  cases protocol with
  | ouch => exact littleEndian_field_lt packet 24 4
  | sbe => exact littleEndian_field_lt packet 32 4

theorem priceScaled_lt (protocol : BinaryProtocol) (packet : Bytes) :
    protocol.priceScaled packet < 2 ^ 64 := by
  cases protocol with
  | ouch => exact Nat.lt_trans (littleEndian_field_lt packet 28 4) (by decide)
  | sbe => exact littleEndian_field_lt packet 24 8

theorem acceptsOnly_iff (protocol : BinaryProtocol) (payload : Option Bytes) :
    protocol.AcceptsOnly payload ↔ protocol.Meets payload := by
  by_cases short : (packetOf payload).length < protocol.packetSize
  next =>
    have empty := parse_short short
    have other : (ProtocolParser.parseInPlace protocol.type payload).msgTypeChar ≠ 68 := by
      rw [empty]
      decide
    refine iff_of_true ⟨?_, ?_, ?_, ?_⟩ (Or.inl short)
    next => exact fun typed => absurd typed other
    next => exact fun typed => absurd typed other
    next =>
      rintro - engine packet same rfl
      apply engine.step_of_not_admitted
      apply Screening.not_admitted_of_type
      rwa [Ingress.screen_order, same]
    next =>
      rintro - worker packet same rfl
      apply worker.step_of_not_admitted
      apply Screening.not_admitted_of_type
      rwa [Ingress.screen_order, same]
  next =>
    have long := Nat.not_lt.mp short
    obtain ⟨typed, quantity, price⟩ := parse_long long
    have quantityFits := wrapInt32_eq_iff (protocol.quantity_lt (packetOf payload))
    have priceFits := wrapInt64_eq_iff (protocol.priceScaled_lt (packetOf payload))
    constructor
    next =>
      intro accepts
      have valid := accepts.valid typed
      have numbers := accepts.numbers typed
      rw [quantity, price, quantityFits, priceFits] at numbers
      exact Or.inr ⟨valid.namesOrder, valid.namesSide, numbers⟩
    next =>
      intro meets
      obtain ⟨order, side, numbers⟩ := meets.resolve_left short
      have valid : protocol.Valid payload := ⟨long, order, side⟩
      refine ⟨fun _ => valid, fun _ => ?_, fun invalid => absurd valid invalid,
        fun invalid => absurd valid invalid⟩
      rw [quantity, price, quantityFits, priceFits]
      exact numbers

-- A message of type 'X' with the side byte 'Z', taken for an order to sell.
def cancelPacket : Packet where
  payload := some (OuchEnterOrderPacket.bytes
    { packetType := 88, seqNum := 1, clOrdId := List.replicate 14 65, side := 90, quantity := 10
      priceScaled := 35000000, symbol := List.replicate 6 66, timestampNs := 0
      clOrdId_length := rfl, symbol_length := rfl })
  latencyNs := 0
  currentTs := 0

theorem acceptsOnly_broken_cancelPacket :
    (HftOrderBookEngine.step { protocolType := .ouch } cancelPacket).submitted.map
        (fun order => (order.side, order.quantity, order.price)) = [(2, 10, 35000000)] ∧
      ¬ ouch.AcceptsOnly cancelPacket.payload := by
  refine ⟨by decide +kernel, ?_⟩
  intro accepts
  have valid := accepts.valid (by decide +kernel)
  exact absurd valid.namesOrder (by decide +kernel)

end BinaryProtocol

end HftFixEngine.Engine
