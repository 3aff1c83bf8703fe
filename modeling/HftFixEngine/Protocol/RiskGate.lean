import HftFixEngine.Protocol.PreTradeRiskManager
import Mathlib.Algebra.Order.Group.Unbundled.Int
import Mathlib.Tactic.Linarith

set_option autoImplicit false

namespace HftFixEngine.Protocol

open Word

inductive RiskCheckStatus where
  | approved
  | rejectedMaxQty
  | rejectedPriceCollar
  | rejectedMaxNotional
  | rejectedKillSwitch
  | rejectedTradingHalt
  deriving DecidableEq, Repr

def RiskCheckResult.status : RiskCheckResult → RiskCheckStatus
  | .approved => .approved
  | .rejected (.maxQty ..) => .rejectedMaxQty
  | .rejected (.priceCollar ..) => .rejectedPriceCollar
  | .rejected (.maxNotional ..) => .rejectedMaxNotional
  | .rejected .killSwitch => .rejectedKillSwitch

-- Limits for which the collar leaves only positive prices of at most 32 bits.
structure RiskLimits.InRange (limits : RiskLimits) (reference : Int) : Prop where
  deviation_nonneg : 0 ≤ limits.maxPriceDeviationScaled
  deviation_lt : limits.maxPriceDeviationScaled < reference
  collar_le : reference + limits.maxPriceDeviationScaled ≤ 2 ^ 32
  notional_le : limits.maxNotionalValueUsd ≤ 9 * 10 ^ 12

structure ParsedOrder.Priced (order : ParsedOrder) : Prop where
  quantity : InInt32 order.quantity
  price : InInt64 order.price
  price_ge : -(2 ^ 62) ≤ order.price

namespace RiskLimits

-- The checks in exact integers, in the order the gate makes them.
def firstFailing (limits : RiskLimits) (order : ParsedOrder) (reference : Int) : RiskCheckStatus :=
  if limits.killSwitchActive then .rejectedKillSwitch
  else if (limits.maxOrderQty : Int) < order.quantity then .rejectedMaxQty
  else if limits.maxPriceDeviationScaled < |order.price - reference| then .rejectedPriceCollar
  else if order.quantity < 0 ∨
      (limits.maxNotionalValueUsd : Int) < order.quantity * order.price / 10 ^ 6
    then .rejectedMaxNotional
  else .approved

def Admits (limits : RiskLimits) (order : ParsedOrder) (reference : Int) : Prop :=
  limits.killSwitchActive = false ∧ 0 ≤ order.quantity ∧ order.quantity ≤ limits.maxOrderQty ∧
    |order.price - reference| ≤ limits.maxPriceDeviationScaled ∧
    order.quantity * order.price / 10 ^ 6 ≤ limits.maxNotionalValueUsd

theorem firstFailing_approved_iff (limits : RiskLimits) (order : ParsedOrder) (reference : Int) :
    limits.firstFailing order reference = .approved ↔ limits.Admits order reference := by
  unfold firstFailing Admits
  split_ifs with active large far notional
  next => simp [active]
  next =>
    simp only [false_iff]
    omega
  next =>
    simp only [false_iff]
    omega
  next =>
    simp only [false_iff]
    omega
  next =>
    rw [not_or, Int.not_lt, Int.not_lt] at notional
    simp only [true_iff]
    exact ⟨by simpa using active, notional.1, by omega, by omega, notional.2⟩

end RiskLimits

namespace PreTradeRiskManager

variable {limits : RiskLimits} {order : ParsedOrder} {reference : Int}

theorem fatFinger_iff (typed : InInt32 order.quantity) :
    fatFinger limits order = true ↔ (limits.maxOrderQty : Int) < order.quantity := by
  unfold InInt32 at typed
  rw [fatFinger, Bool.and_eq_true, decide_eq_true_eq, decide_eq_true_eq, toUint32]
  omega

theorem exactDeviation_eq_abs (price reference : Int) :
    exactDeviation price reference = |price - reference| := by
  unfold exactDeviation
  split_ifs with above
  next => rw [abs_of_pos (by omega)]
  next =>
    rw [abs_of_nonpos (by omega)]
    omega

theorem deviation_eq_abs (range : limits.InRange reference) (priced : order.Priced) :
    deviation order.price reference = |order.price - reference| := by
  obtain ⟨nonneg, positive, collar, -⟩ := range
  obtain ⟨-, price, least⟩ := priced
  unfold InInt64 at price
  rw [deviation, exactDeviation_eq_abs, wrapInt64_of_inInt64]
  unfold InInt64
  rw [← exactDeviation_eq_abs, exactDeviation]
  split_ifs <;> omega

section Notional

variable (range : limits.InRange reference)
    (near : |order.price - reference| ≤ limits.maxPriceDeviationScaled)

include range near

theorem price_bounds : 0 < order.price ∧ order.price ≤ 2 ^ 32 := by
  obtain ⟨nonneg, positive, collar, -⟩ := range
  rw [abs_le] at near
  omega

theorem notionalUsd_exact (priced : order.Priced) (nonneg : 0 ≤ order.quantity) :
    (notionalUsd order : Int) = order.quantity * order.price / 10 ^ 6 := by
  obtain ⟨positive, most⟩ := price_bounds range near
  obtain ⟨-, small⟩ := priced.quantity
  have low : 0 ≤ order.quantity * order.price := by positivity
  have high : order.quantity * order.price < 2 ^ 63 := by nlinarith
  rw [notionalUsd, u64_mul_toUint64, toUint64]
  omega

-- The product is between -2^63 and -1, so its image in 64 bits is at least 2^63.
theorem notionalUsd_negative (priced : order.Priced) (negative : order.quantity < 0) :
    limits.maxNotionalValueUsd < notionalUsd order := by
  obtain ⟨positive, most⟩ := price_bounds range near
  obtain ⟨large, -⟩ := priced.quantity
  have low : -(2 ^ 63) ≤ order.quantity * order.price := by nlinarith
  have high : order.quantity * order.price < 0 := by nlinarith
  have cap := range.notional_le
  rw [notionalUsd, u64_mul_toUint64, toUint64]
  omega

theorem notionalUsd_above_iff (priced : order.Priced) :
    limits.maxNotionalValueUsd < notionalUsd order ↔
      order.quantity < 0 ∨
        (limits.maxNotionalValueUsd : Int) < order.quantity * order.price / 10 ^ 6 := by
  by_cases negative : order.quantity < 0
  next =>
    have above := notionalUsd_negative range near priced negative
    simp [negative, above]
  next =>
    have exact := notionalUsd_exact range near priced (by omega)
    rw [← exact]
    simp [negative]

end Notional

theorem evaluate_status (range : limits.InRange reference) (priced : order.Priced) :
    (evaluate limits order reference).status = limits.firstFailing order reference := by
  have positive : reference > 0 := by
    have low := range.deviation_nonneg
    have high := range.deviation_lt
    omega
  unfold evaluate RiskLimits.firstFailing
  rw [deviation_eq_abs range priced]
  simp only [fatFinger_iff priced.quantity, positive, true_and]
  by_cases active : limits.killSwitchActive = true
  next => simp [active, RiskCheckResult.status]
  next =>
    rw [if_neg active, if_neg active]
    by_cases large : (limits.maxOrderQty : Int) < order.quantity
    next => simp [large, RiskCheckResult.status]
    next =>
      rw [if_neg large, if_neg large]
      by_cases far : |order.price - reference| > limits.maxPriceDeviationScaled
      next => rw [if_pos far, if_pos far, RiskCheckResult.status]
      next =>
        have above := notionalUsd_above_iff range (by omega) priced
        rw [if_neg far, if_neg far]
        by_cases notional : limits.maxNotionalValueUsd < notionalUsd order
        next => rw [if_pos notional, if_pos (above.mp notional), RiskCheckResult.status]
        next =>
          rw [if_neg notional, if_neg (fun fails => notional (above.mpr fails)),
            RiskCheckResult.status]

theorem status_approved_iff (result : RiskCheckResult) :
    result.status = .approved ↔ result = .approved := by
  cases result with
  | approved => simp [RiskCheckResult.status]
  | rejected reason => cases reason <;> simp [RiskCheckResult.status]

inductive Request where
  | evaluateOrder (order : ParsedOrder) (reference : Int)
  | setLimits (limits : RiskLimits)
  | setKillSwitch (active : Bool)
  deriving DecidableEq, Repr

def serve (manager : PreTradeRiskManager) : Request → PreTradeRiskManager
  | .evaluateOrder order reference => (manager.evaluateOrder order reference).2
  | .setLimits limits => manager.setLimits limits
  | .setKillSwitch active => manager.setKillSwitch active

def Request.evaluates : Request → Bool
  | .evaluateOrder .. => true
  | _ => false

def decided (manager : PreTradeRiskManager) : Nat := manager.approvedCount + manager.rejectedCount

theorem serve_decided (manager : PreTradeRiskManager) (request : Request) :
    u64 (manager.serve request).decided = u64 (manager.decided + request.evaluates.toNat) ∧
      (manager.serve request).decided ≤ manager.decided + request.evaluates.toNat := by
  cases request with
  | evaluateOrder order reference =>
    simp only [serve, evaluateOrder, Request.evaluates, Bool.toNat_true, decided, u64]
    split
    next => simp only; omega
    next => simp only; omega
  | setLimits limits => exact ⟨rfl, Nat.le_refl _⟩
  | setKillSwitch active => exact ⟨rfl, Nat.le_refl _⟩

theorem run_decided (manager : PreTradeRiskManager) (requests : List Request) :
    u64 (requests.foldl serve manager).decided =
        u64 (manager.decided + requests.countP Request.evaluates) ∧
      (requests.foldl serve manager).decided ≤
        manager.decided + requests.countP Request.evaluates := by
  induction requests generalizing manager with
  | nil => exact ⟨rfl, Nat.le_refl _⟩
  | cons request requests ih =>
    have step := manager.serve_decided request
    have later := ih (manager.serve request)
    have counted : (request :: requests).countP Request.evaluates =
        requests.countP Request.evaluates + request.evaluates.toNat := by
      cases evaluates : request.evaluates <;> simp [evaluates]
    simp only [u64, List.foldl_cons, counted] at step later ⊢
    omega

theorem evaluateOrder_exact (manager : PreTradeRiskManager) (order : ParsedOrder)
    (reference : Int) (range : manager.limits.InRange reference) (priced : order.Priced)
    (limits : RiskLimits) (requests : List Request) :
    let after := requests.foldl serve { limits }
    ((manager.evaluateOrder order reference).1 = .approved ↔
      manager.limits.Admits order reference) ∧
    (manager.evaluateOrder order reference).1.status =
      manager.limits.firstFailing order reference ∧
    u64 (after.approvedCount + after.rejectedCount) = u64 (requests.countP Request.evaluates) ∧
    (requests.countP Request.evaluates < 2 ^ 64 →
      after.approvedCount + after.rejectedCount = requests.countP Request.evaluates) := by
  intro after
  have status := evaluate_status range priced
  refine ⟨?_, ?_, ?_⟩
  next =>
    rw [evaluateOrder_result, ← status_approved_iff, status, RiskLimits.firstFailing_approved_iff]
  next => rw [evaluateOrder_result, status]
  next =>
    obtain ⟨same, most⟩ := run_decided { limits } requests
    have fresh : decided { limits } = 0 := rfl
    rw [fresh, Nat.zero_add] at same most
    refine ⟨same, ?_⟩
    intro fits
    change (requests.foldl serve { limits }).decided = _
    simp only [u64] at same
    omega

theorem evaluateOrder_exact_default :
    let manager : PreTradeRiskManager := {}
    let sold : ParsedOrder := { quantity := -1, price := 35000000 }
    manager.limits.InRange 35000000 ∧ sold.Priced ∧
      (manager.evaluateOrder sold 35000000).1.status = .rejectedMaxNotional ∧
      ((manager.evaluateOrder { quantity := 1000, price := 35500000 } 35000000).1 = .approved ↔
        manager.limits.Admits { quantity := 1000, price := 35500000 } 35000000) := by
  intro manager sold
  have range : manager.limits.InRange 35000000 := ⟨by decide, by decide, by decide, by decide⟩
  have priced : sold.Priced := ⟨by decide, by decide, by decide⟩
  refine ⟨range, priced, ?_, ?_⟩
  next =>
    rw [(evaluateOrder_exact manager sold 35000000 range priced {} []).2.1]
    decide
  next =>
    exact (evaluateOrder_exact manager _ 35000000 range ⟨by decide, by decide, by decide⟩ {} []).1

end PreTradeRiskManager

end HftFixEngine.Protocol
