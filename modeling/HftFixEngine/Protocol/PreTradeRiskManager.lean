import HftFixEngine.Protocol.ParsedOrder

set_option autoImplicit false

namespace HftFixEngine.Protocol

open Word

inductive RejectionReason where
  | maxQty (quantity : Int) (limit : Nat)
  | priceCollar (price deviation reference : Int)
  | maxNotional (notional cap : Nat)
  | killSwitch
  deriving DecidableEq, Repr

inductive RiskCheckResult where
  | approved
  | rejected (reason : RejectionReason)
  deriving DecidableEq, Repr

structure RiskLimits where
  maxOrderQty : Nat := 50000
  maxPriceDeviationScaled : Int := 5000000
  maxNotionalValueUsd : Nat := 2000000
  killSwitchActive : Bool := false
  deriving DecidableEq, Repr

structure PreTradeRiskManager where
  limits : RiskLimits := {}
  approvedCount : Nat := 0
  rejectedCount : Nat := 0
  deriving DecidableEq, Repr

namespace PreTradeRiskManager

-- The larger price less the smaller one, before it is stored in 64 bits.
def exactDeviation (price reference : Int) : Int :=
  if price > reference then price - reference else reference - price

def deviation (price reference : Int) : Int := wrapInt64 (exactDeviation price reference)

def notionalUsd (order : ParsedOrder) : Nat :=
  u64 (toUint64 order.quantity * toUint64 order.price) / 1000000

def fatFinger (limits : RiskLimits) (order : ParsedOrder) : Bool :=
  decide (order.quantity > 0) && decide (toUint32 order.quantity > limits.maxOrderQty)

def evaluate (limits : RiskLimits) (order : ParsedOrder) (reference : Int) : RiskCheckResult :=
  if limits.killSwitchActive then .rejected .killSwitch
  else if fatFinger limits order then .rejected (.maxQty order.quantity limits.maxOrderQty)
  else if reference > 0 ∧ deviation order.price reference > limits.maxPriceDeviationScaled then
    .rejected (.priceCollar order.price limits.maxPriceDeviationScaled reference)
  else if notionalUsd order > limits.maxNotionalValueUsd then
    .rejected (.maxNotional (notionalUsd order) limits.maxNotionalValueUsd)
  else .approved

def evaluateOrder (manager : PreTradeRiskManager) (order : ParsedOrder) (reference : Int) :
    RiskCheckResult × PreTradeRiskManager :=
  match evaluate manager.limits order reference with
  | .approved => (.approved, { manager with approvedCount := u64 (manager.approvedCount + 1) })
  | .rejected reason =>
    (.rejected reason, { manager with rejectedCount := u64 (manager.rejectedCount + 1) })

def setKillSwitch (manager : PreTradeRiskManager) (active : Bool) : PreTradeRiskManager :=
  { manager with limits := { manager.limits with killSwitchActive := active } }

def setLimits (manager : PreTradeRiskManager) (limits : RiskLimits) : PreTradeRiskManager :=
  { manager with limits }

@[simp]
theorem evaluateOrder_result (manager : PreTradeRiskManager) (order : ParsedOrder)
    (reference : Int) :
    (manager.evaluateOrder order reference).1 = evaluate manager.limits order reference := by
  unfold evaluateOrder
  split <;> simp_all

end PreTradeRiskManager

end HftFixEngine.Protocol
