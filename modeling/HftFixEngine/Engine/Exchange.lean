import HftFixEngine.Engine.DepthDeck
import HftFixEngine.Engine.EngineAgreement

set_option autoImplicit false

namespace HftFixEngine.Engine

open Protocol Networking Matching Word PreTradeRiskManager

instance (order : ParsedOrder) : Decidable (WithinLimits order) :=
  decidable_of_iff
    (0 ≤ order.quantity ∧ order.quantity ≤ 50000 ∧ 30000000 ≤ order.price ∧
      order.price ≤ 40000000 ∧ order.quantity * order.price < 2000001 * 10 ^ 6)
    ⟨fun ⟨nonneg, most, least, top, notional⟩ => ⟨nonneg, most, least, top, notional⟩,
      fun ⟨nonneg, most, least, top, notional⟩ => ⟨nonneg, most, least, top, notional⟩⟩

theorem withinLimits_approved {order : ParsedOrder} (typed : order.WellTyped)
    (within : WithinLimits order) : evaluate {} order referencePrice = .approved := by
  obtain ⟨nonneg, most, least, top, notional⟩ := within
  have finger : fatFinger {} order = false := (fatFinger_eq_false_iff typed.quantity).mpr most
  have near : farBelow order = false := by
    simp only [farBelow, referencePrice, decide_eq_false_iff_not]
    omega
  have collar : ¬ deviation order.price referencePrice > 5000000 := by
    rw [deviation, wrapInt64_of_inInt64 ((exactDeviation_inInt64_iff typed.price).mpr near)]
    simp only [exactDeviation, referencePrice]
    split <;> omega
  have value : ¬ notionalUsd order > 2000000 := by
    have low : 0 ≤ order.quantity * order.price := Int.mul_nonneg nonneg (by omega)
    rw [notionalUsd, u64_mul_toUint64, toUint64]
    omega
  unfold evaluate
  rw [if_neg (by decide), finger, if_neg (by decide), if_neg (fun both => collar both.2),
    if_neg value]

theorem evaluate_default_iff {order : ParsedOrder} (typed : order.WellTyped)
    (near : farBelow order = false) :
    evaluate {} order referencePrice = .approved ↔ WithinLimits order :=
  ⟨approved_withinLimits typed near, withinLimits_approved typed⟩

def Packet.order (protocol : ProtocolType) (packet : Packet) : ParsedOrder :=
  { ProtocolParser.received protocol packet.payload packet.staleId with latencyNs := packet.latencyNs }

-- A number is repeated when it is the last one seen of those that share its slot; `seqs` is newest
-- first.
def repeats (seqs : List Nat) (seqNum : Nat) : Bool :=
  seqs.find? (fun earlier => earlier ≠ 0 ∧ earlier % windowSize = seqNum % windowSize) = some seqNum

structure Exchange where
  seqs : List Nat := []
  taken : List ParsedOrder := []
  book : LiveBook := {}
  deriving DecidableEq, Repr

namespace Exchange

def Takes (exchange : Exchange) (order : ParsedOrder) : Prop :=
  (order.seqNum = 0 ∨ repeats exchange.seqs order.seqNum = false) ∧ order.msgTypeChar = 68 ∧
    WithinLimits order

instance (exchange : Exchange) (order : ParsedOrder) : Decidable (exchange.Takes order) :=
  inferInstanceAs (Decidable (_ ∧ _ ∧ _))

def receive (exchange : Exchange) (order : ParsedOrder) : Exchange :=
  let seqs := order.seqNum :: exchange.seqs
  if exchange.Takes order then
    { seqs, taken := exchange.taken ++ [order], book := exchange.book.submit order }
  else { exchange with seqs }

def after (orders : List ParsedOrder) : Exchange := orders.foldl receive {}

theorem receive_seqs (exchange : Exchange) (order : ParsedOrder) :
    (exchange.receive order).seqs = order.seqNum :: exchange.seqs := by
  unfold receive
  split <;> rfl

end Exchange

structure Window (seqs : List Nat) (arbitrator : FeedArbitrator) : Prop where
  size : arbitrator.windowSize = windowSize
  last : ∀ seqNum, seqNum ≠ 0 →
    (arbitrator.seenSequences (seqNum % windowSize) = seqNum ↔ repeats seqs seqNum = true)

namespace Window

variable {seqs : List Nat} {ingress : Ingress}

theorem start : Window [] ({} : Ingress).feedArbitrator where
  size := rfl
  last seqNum some := by
    simp [repeats, some.symm]

theorem slot_eq (window : Window seqs ingress.feedArbitrator) (seqNum : Nat) :
    ingress.feedArbitrator.slot seqNum = seqNum % windowSize := by
  rw [ingress.feedArbitrator.slot_eq_mod (window.size.trans (by rfl : _ = 2 ^ 11)), window.size]

theorem suppresses_iff (window : Window seqs ingress.feedArbitrator) (seqNum : Nat) :
    ingress.suppresses seqNum = true ↔ ¬ (seqNum = 0 ∨ repeats seqs seqNum = false) := by
  rw [Ingress.suppresses, window.slot_eq, Bool.and_eq_true, decide_eq_true_eq, decide_eq_true_eq,
    not_or, Bool.not_eq_false, Nat.pos_iff_ne_zero]
  exact and_congr_right fun some => window.last seqNum some

-- A number takes its slot, a zero takes none.
theorem arbitrate (window : Window seqs ingress.feedArbitrator) (seqNum : Nat) :
    Window (seqNum :: seqs) (ingress.arbitrate seqNum).2.feedArbitrator where
  size := (ingress.arbitrate_windowSize seqNum).trans window.size
  last other some := by
    rw [ingress.arbitrate_seenSequences, repeats, List.find?_cons]
    by_cases zero : seqNum = 0
    next =>
      rw [if_pos zero]
      simp only [zero, ne_eq, not_true, false_and, decide_false]
      exact window.last other some
    next =>
      rw [if_neg zero, window.slot_eq]
      by_cases same : other % windowSize = seqNum % windowSize
      next => simp [zero, same, Function.update_self]
      next =>
        rw [Function.update_of_ne same]
        simp only [ne_eq, zero, not_false_eq_true, Ne.symm same, and_false, decide_false]
        exact window.last other some

end Window

namespace Ingress

theorem screen_limits (ingress : Ingress) (protocol : ProtocolType) (packet : Packet) :
    (ingress.screen protocol packet).ingress.riskMgr.limits = ingress.riskMgr.limits := by
  have decided (manager : PreTradeRiskManager) (order : ParsedOrder) :
      (manager.evaluateOrder order referencePrice).2.limits = manager.limits := by
    unfold evaluateOrder
    split <;> rfl
  unfold screen
  simp only
  split
  next => rw [arbitrate_riskMgr]
  next => rw [decided, checkGap_riskMgr, arbitrate_riskMgr]

end Ingress

theorem HftOrderBookEngine.step_session (engine : HftOrderBookEngine) (packet : Packet) :
    let screening := engine.ingress.screen engine.protocolType packet
    (engine.step packet).session =
      if screening.admitted then
        engine.session.next
          { order := screening.order, tag := screening.order, timestampNs := packet.currentTs }
      else engine.session := by
  intro screening
  rcases engine.step_cases packet with ⟨duplicate, step⟩ | ⟨telemetry, step⟩ <;> rw [step]
  next => rw [Screening.not_admitted_of_duplicate duplicate, if_neg (by decide)]; rfl
  next => split <;> rfl

structure Refines (engine : HftOrderBookEngine) (exchange : Exchange) : Prop where
  ready : Ready engine
  limits : engine.ingress.riskMgr.limits = {}
  window : Window exchange.seqs engine.ingress.feedArbitrator
  submitted : engine.submitted = exchange.taken
  book : engine.session.book.live = exchange.book

namespace Refines

variable {engine : HftOrderBookEngine} {exchange : Exchange} {packet : Packet}

theorem admitted_iff (refines : Refines engine exchange)
    (near : farBelow (packet.order engine.protocolType) = false) :
    (engine.ingress.screen engine.protocolType packet).admitted = true ↔
      exchange.Takes (packet.order engine.protocolType) := by
  let order := packet.order engine.protocolType
  have read : (engine.ingress.screen engine.protocolType packet).order = order :=
    engine.ingress.screen_order engine.protocolType packet
  have typed := engine.ingress.screen_wellTyped engine.protocolType packet
  have risk := engine.ingress.screen_risk engine.protocolType packet
  rw [read] at typed
  rw [read, refines.limits] at risk
  have repeated := refines.window.suppresses_iff order.seqNum
  change _ ↔ exchange.Takes order
  rw [Screening.admitted, read, risk, Exchange.Takes, ← evaluate_default_iff typed near]
  cases suppressed : engine.ingress.suppresses order.seqNum with
  | true => simp [repeated.mp suppressed]
  | false =>
    have fresh := Decidable.not_not.mp (mt repeated.mpr (by simp [suppressed]))
    simp [fresh, and_comm]

theorem step (refines : Refines engine exchange)
    (near : farBelow (packet.order engine.protocolType) = false) :
    Refines (engine.step packet) (exchange.receive (packet.order engine.protocolType)) := by
  have admitted := refines.admitted_iff near
  have read : (engine.ingress.screen engine.protocolType packet).order = _ :=
    engine.ingress.screen_order engine.protocolType packet
  constructor
  case ready => exact refines.ready.step packet
  case limits => rw [engine.step_ingress, Ingress.screen_limits, refines.limits]
  case window =>
    rw [engine.step_ingress, Exchange.receive_seqs, Ingress.screen_feedArbitrator]
    exact refines.window.arbitrate _
  case submitted =>
    rw [engine.step_submitted, Screening.handed, refines.submitted, Exchange.receive, read]
    simp only [admitted]
    split
    next => rfl
    next => exact List.append_nil _
  case book =>
    rw [engine.step_session, Exchange.receive]
    simp only [admitted]
    split
    next taken =>
      have fits : QuantityFits (packet.order engine.protocolType) :=
        ⟨taken.2.2.quantity_nonneg, Int.lt_of_le_of_lt taken.2.2.quantity_le (by decide)⟩
      have live := refines.ready.sessionOk.bookOk.submitOrder_live fits
      rw [read, ← refines.book]
      exact live _ _ _ _ _
    next => exact refines.book

end Refines

theorem engine_run_refines (protocol : ProtocolType) (packets : List Packet)
    (near : ∀ packet, packet ∈ packets → farBelow (packet.order protocol) = false) :
    Refines (HftOrderBookEngine.run protocol packets)
      (Exchange.after (packets.map (Packet.order protocol))) := by
  induction packets using List.reverseRecOn with
  | nil => exact ⟨Ready.start protocol, rfl, Window.start, rfl, rfl⟩
  | append_singleton packets packet ih =>
    have earlier := ih fun other member => near other (List.mem_append_left _ member)
    have same := (engine_run_delivery protocol packets).1
    have step (near : farBelow (packet.order protocol) = false) := earlier.step (same ▸ near)
    rw [same] at step
    rw [HftOrderBookEngine.run_append, List.map_append, Exchange.after, List.foldl_append]
    exact step (near packet (by simp))

-- What is taken is within the limits, so no order that rests is larger than they allow.
theorem Exchange.book_eq (orders : List ParsedOrder) :
    (after orders).book = LiveBook.after (after orders).taken := by
  induction orders using List.reverseRecOn with
  | nil => rfl
  | append_singleton orders order ih =>
    rw [after, List.foldl_append, List.foldl_cons, List.foldl_nil]
    change (receive (after orders) order).book = LiveBook.after (receive (after orders) order).taken
    rw [receive]
    split
    next => rw [ih, LiveBook.after, LiveBook.after, List.foldl_append]; rfl
    next => exact ih

theorem Exchange.taken_withinLimits (orders : List ParsedOrder) :
    ∀ order, order ∈ (after orders).taken → WithinLimits order := by
  induction orders using List.reverseRecOn with
  | nil => simp [after]
  | append_singleton orders last ih =>
    rw [after, List.foldl_append, List.foldl_cons, List.foldl_nil]
    change ∀ order, order ∈ (receive (after orders) last).taken → WithinLimits order
    rw [receive]
    split
    next taken =>
      intro order member
      rcases List.mem_append.mp member with old | new
      next => exact ih order old
      next => exact List.mem_singleton.mp new ▸ taken.2.2
    next => exact ih

theorem engine_refines_exchange (protocol : ProtocolType) (packets : List Packet)
    (near : ∀ packet, packet ∈ packets → farBelow (packet.order protocol) = false) :
    let engine := HftOrderBookEngine.run protocol packets
    let exchange := Exchange.after (packets.map (Packet.order protocol))
    engine.submitted = exchange.taken ∧ engine.session.book.live = exchange.book ∧
      TrueDeck exchange.book (getTopOfBookSnapshot engine.session.book) := by
  intro engine exchange
  have refines : Refines engine exchange := engine_run_refines protocol packets near
  refine ⟨refines.submitted, refines.book, ?_⟩
  have bounded : exchange.book.Bounded 50000 := by
    rw [Exchange.book_eq]
    exact LiveBook.after_bounded _ fun order taken =>
      (Exchange.taken_withinLimits _ order taken).quantity_le
  rw [← refines.book] at bounded ⊢
  exact trueDeck_of_bounded refines.ready.sessionOk.bookOk (by decide) bounded

theorem engine_refines_exchange_offerAndBids :
    let engine := HftOrderBookEngine.run .sbe offerAndBids
    engine.submitted.map ParsedOrder.seqNum = [1, 2] ∧
      engine.session.book.live = { asks := [⟨35000000, 6⟩] } := by
  intro engine
  obtain ⟨submitted, book, -⟩ := engine_refines_exchange .sbe offerAndBids (by decide +kernel)
  exact ⟨(congrArg _ submitted).trans (by decide +kernel), book.trans (by decide +kernel)⟩

end HftFixEngine.Engine
