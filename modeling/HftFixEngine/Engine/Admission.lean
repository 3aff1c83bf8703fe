import HftFixEngine.Engine.HftOrderBookEngine
import HftFixEngine.Engine.MatchingWorker
import Mathlib.Tactic.Linarith

set_option autoImplicit false

namespace HftFixEngine.Engine

open Protocol Networking Matching Word PreTradeRiskManager

structure WithinLimits (order : ParsedOrder) : Prop where
  quantity_nonneg : 0 ≤ order.quantity
  quantity_le : order.quantity ≤ 50000
  price_ge : 30000000 ≤ order.price
  price_le : order.price ≤ 40000000
  notional_lt : order.quantity * order.price < 2000001 * 10 ^ 6

def farBelow (order : ParsedOrder) : Bool := decide (order.price ≤ referencePrice - 2 ^ 63)

theorem fatFinger_eq_false_iff {order : ParsedOrder} (typed : InInt32 order.quantity) :
    fatFinger {} order = false ↔ order.quantity ≤ 50000 := by
  have finger : fatFinger {} order =
      (decide (order.quantity > 0) && decide (toUint32 order.quantity > 50000)) := rfl
  unfold InInt32 at typed
  rw [finger, Bool.and_eq_false_iff, decide_eq_false_iff_not, decide_eq_false_iff_not, toUint32]
  omega

theorem exactDeviation_inInt64_iff {order : ParsedOrder} (typed : InInt64 order.price) :
    InInt64 (exactDeviation order.price referencePrice) ↔ farBelow order = false := by
  unfold InInt64 at typed
  simp only [InInt64, exactDeviation, farBelow, referencePrice, decide_eq_false_iff_not]
  split_ifs <;> omega

theorem notionalUsd_of_negative {order : ParsedOrder} (typed : InInt32 order.quantity)
    (negative : order.quantity < 0) (least : 30000000 ≤ order.price)
    (most : order.price ≤ 40000000) : 2000000 < notionalUsd order := by
  unfold InInt32 at typed
  have low : -(2 ^ 31) * 40000000 ≤ order.quantity * order.price := by nlinarith
  have high : order.quantity * order.price < 0 := by nlinarith
  rw [notionalUsd, u64_mul_toUint64, toUint64]
  omega

theorem evaluate_default_approved {order : ParsedOrder}
    (approved : evaluate {} order referencePrice = .approved) :
    fatFinger {} order = false ∧ deviation order.price referencePrice ≤ 5000000 ∧
      notionalUsd order ≤ 2000000 := by
  unfold evaluate at approved
  rw [if_neg (by decide)] at approved
  split_ifs at approved with finger collar notional
  refine ⟨by simpa using finger, ?_, Nat.le_of_not_lt notional⟩
  rw [not_and_or, Int.not_lt, Int.not_lt] at collar
  exact collar.resolve_left (by decide)

theorem approved_withinLimits {order : ParsedOrder} (typed : order.WellTyped)
    (near : farBelow order = false) (approved : evaluate {} order referencePrice = .approved) :
    WithinLimits order := by
  have fits := (exactDeviation_inInt64_iff typed.price).mpr near
  obtain ⟨finger, collar, notional⟩ := evaluate_default_approved approved
  have quantity := (fatFinger_eq_false_iff typed.quantity).mp finger
  rw [deviation, wrapInt64_of_inInt64 fits, exactDeviation] at collar
  simp only [referencePrice] at collar
  have least : 30000000 ≤ order.price := by split_ifs at collar <;> omega
  have most : order.price ≤ 40000000 := by split_ifs at collar <;> omega
  have positive : 0 ≤ order.quantity := by
    by_contra negative
    have above := notionalUsd_of_negative typed.quantity (by omega) least most
    omega
  exact ⟨positive, quantity, least, most, by nlinarith⟩

namespace Ingress

def suppresses (ingress : Ingress) (seqNum : Nat) : Bool :=
  decide (0 < seqNum) &&
    decide (ingress.feedArbitrator.seenSequences (ingress.feedArbitrator.slot seqNum) = seqNum)

variable (ingress : Ingress) (protocol : ProtocolType) (packet : Packet)

theorem arbitrate_duplicate (seqNum : Nat) :
    (ingress.arbitrate seqNum).1 = ingress.suppresses seqNum := by
  unfold arbitrate suppresses
  by_cases some : 0 < seqNum
  next => simp [some, FeedArbitrator.processPacket_isDuplicate]
  next => simp [some]

theorem arbitrate_riskMgr (seqNum : Nat) : (ingress.arbitrate seqNum).2.riskMgr = ingress.riskMgr := by
  unfold arbitrate
  split <;> rfl

theorem checkGap_riskMgr (seqNum : Nat) : (ingress.checkGap seqNum).2.riskMgr = ingress.riskMgr := by
  unfold checkGap
  split <;> rfl

theorem checkGap_feedArbitrator (seqNum : Nat) :
    (ingress.checkGap seqNum).2.feedArbitrator = ingress.feedArbitrator := by
  unfold checkGap
  split <;> rfl

theorem screen_risk :
    (ingress.screen protocol packet).risk =
      if ingress.suppresses (ingress.screen protocol packet).order.seqNum then none
      else some (evaluate ingress.riskMgr.limits (ingress.screen protocol packet).order
        referencePrice) := by
  rw [screen_order]
  unfold screen
  simp only [arbitrate_duplicate]
  split_ifs with seen
  next => rfl
  next => simp [checkGap_riskMgr, arbitrate_riskMgr]

theorem screen_wellTyped : (ingress.screen protocol packet).order.WellTyped := by
  obtain ⟨side, quantity, price, seqNum⟩ :=
    ProtocolParser.received_wellTyped protocol packet.payload packet.staleId
  rw [screen_order]
  exact ⟨side, quantity, price, seqNum⟩

def CollarOverflows : Prop :=
  let screening := ingress.screen protocol packet
  screening.risk ≠ none ∧ ingress.riskMgr.limits.killSwitchActive = false ∧
    fatFinger ingress.riskMgr.limits screening.order = false ∧
    ¬ InInt64 (exactDeviation screening.order.price referencePrice)

def Slips : Prop :=
  let order := (ingress.screen protocol packet).order
  ingress.suppresses order.seqNum = false ∧ order.quantity ≤ 50000 ∧
    order.price ≤ referencePrice - 2 ^ 63

variable {ingress protocol packet}

theorem collarOverflows_iff (limits : ingress.riskMgr.limits = {}) :
    ingress.CollarOverflows protocol packet ↔ ingress.Slips protocol packet := by
  have typed := ingress.screen_wellTyped protocol packet
  unfold CollarOverflows Slips
  simp only [limits, fatFinger_eq_false_iff typed.quantity, exactDeviation_inInt64_iff typed.price,
    screen_risk, farBelow]
  cases ingress.suppresses (ingress.screen protocol packet).order.seqNum <;> simp

theorem admitted_withinLimits (limits : ingress.riskMgr.limits = {})
    (holds : ¬ ingress.Slips protocol packet)
    (admitted : (ingress.screen protocol packet).admitted = true) :
    WithinLimits (ingress.screen protocol packet).order := by
  have typed := ingress.screen_wellTyped protocol packet
  have approved : (ingress.screen protocol packet).risk = some .approved := by
    simp only [Screening.admitted, Bool.and_eq_true, decide_eq_true_eq] at admitted
    exact admitted.1
  rw [screen_risk, limits] at approved
  split_ifs at approved with seen
  have passed := Option.some.inj approved
  refine approved_withinLimits typed ?_ passed
  by_contra far
  have quantity : (ingress.screen protocol packet).order.quantity ≤ 50000 := by
    by_contra large
    have finger : fatFinger {} (ingress.screen protocol packet).order = true := by
      by_contra passes
      exact large ((fatFinger_eq_false_iff typed.quantity).mp (by simpa using passes))
    simp [evaluate, finger] at passed
  exact holds ⟨by simpa using seen, quantity, by simpa [farBelow] using far⟩

end Ingress

structure AdmissionLaw (ingress : Ingress) (protocol : ProtocolType) (packet : Packet)
    (before after : List ParsedOrder) : Prop where
  within : ∀ order, after = before ++ [order] → WithinLimits order
  inRange : ¬ ingress.CollarOverflows protocol packet

theorem admissionLaw_iff {ingress : Ingress} {protocol : ProtocolType} {packet : Packet}
    (limits : ingress.riskMgr.limits = {}) (before : List ParsedOrder) :
    AdmissionLaw ingress protocol packet before
        (before ++ (ingress.screen protocol packet).handed) ↔
      ¬ ingress.Slips protocol packet := by
  rw [← Ingress.collarOverflows_iff limits]
  constructor
  next =>
    intro law
    exact law.inRange
  next =>
    intro holds
    refine ⟨?_, holds⟩
    intro order handed
    rw [Ingress.collarOverflows_iff limits] at holds
    have same := List.append_cancel_left handed
    unfold Screening.handed at same
    split_ifs at same with admitted
    obtain rfl : (ingress.screen protocol packet).order = order := (List.cons.inj same).1
    exact Ingress.admitted_withinLimits limits holds admitted

theorem admission_law_holds_iff (engine : HftOrderBookEngine) (worker : MatchingWorker)
    (packet : Packet) (engineLimits : engine.ingress.riskMgr.limits = {})
    (workerLimits : worker.ingress.riskMgr.limits = {}) (going : worker.stopped = false) :
    (AdmissionLaw engine.ingress engine.protocolType packet engine.submitted
        (engine.step packet).submitted ↔
      ¬ engine.ingress.Slips engine.protocolType packet) ∧
    (AdmissionLaw worker.ingress worker.protocolType packet worker.submitted
        (worker.step packet).submitted ↔
      ¬ worker.ingress.Slips worker.protocolType packet) := by
  rw [engine.step_submitted, worker.step_submitted packet going]
  exact ⟨admissionLaw_iff engineLimits _, admissionLaw_iff workerLimits _⟩

def sbePacket (packet : SbeNewOrderSinglePacket) : Packet :=
  { payload := some packet.bytes, latencyNs := 0, currentTs := 0 }

def tenAtReference : Packet :=
  sbePacket ⟨1, 7, 35000000, 10, 1, MatchingEngine.defaultSymbol⟩

theorem admission_law_tenAtReference :
    AdmissionLaw {} .sbe tenAtReference []
        (HftOrderBookEngine.step { protocolType := .sbe } tenAtReference).submitted ∧
      AdmissionLaw {} .sbe tenAtReference []
        (MatchingWorker.step { protocolType := .sbe, expectedMessages := 5 }
          tenAtReference).submitted := by
  obtain ⟨engine, worker⟩ := admission_law_holds_iff { protocolType := .sbe }
    { protocolType := .sbe, expectedMessages := 5 } tenAtReference rfl rfl rfl
  have near : ¬ Ingress.Slips {} .sbe tenAtReference := by
    intro slips
    exact absurd slips.2.2 (by decide +kernel)
  exact ⟨engine.mpr near, worker.mpr near⟩

-- Two units at a scaled price of 2^63: the price is stored as -2^63, its distance from the
-- reference wraps below zero and its notional is 0.
def twoFarBelow : Packet :=
  sbePacket ⟨1, 7, 2 ^ 63, 2, 1, MatchingEngine.defaultSymbol⟩

theorem admission_law_broken_twoFarBelow :
    (HftOrderBookEngine.step { protocolType := .sbe } twoFarBelow).submitted.map
        (fun order => (order.quantity, order.price)) = [(2, -(2 ^ 63))] ∧
      ¬ AdmissionLaw {} .sbe twoFarBelow []
        (HftOrderBookEngine.step { protocolType := .sbe } twoFarBelow).submitted := by
  refine ⟨by decide +kernel, ?_⟩
  intro law
  refine law.inRange ⟨?_, rfl, ?_, ?_⟩
  next => decide +kernel
  next => decide +kernel
  next => decide +kernel

end HftFixEngine.Engine
