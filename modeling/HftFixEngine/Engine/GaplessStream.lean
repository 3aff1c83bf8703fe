import HftFixEngine.Engine.EncodedStreams
import HftFixEngine.Engine.TelemetryLaw

set_option autoImplicit false

namespace HftFixEngine.Engine

open Protocol Networking Matching Word PreTradeRiskManager

structure Gapless (orders : List ParsedOrder) : Prop where
  numbered : orders.map ParsedOrder.seqNum = List.range' 1 orders.length
  new : ∀ order, order ∈ orders → order.msgTypeChar = 68
  near : ∀ order, order ∈ orders → farBelow order = false

theorem Gapless.split {orders : List ParsedOrder} {order : ParsedOrder}
    (gapless : Gapless (orders ++ [order])) :
    Gapless orders ∧ order.seqNum = orders.length + 1 ∧ order.msgTypeChar = 68 ∧
      farBelow order = false := by
  obtain ⟨numbered, new, near⟩ := gapless
  rw [List.map_append, List.length_append, List.length_singleton, List.range'_concat] at numbered
  obtain ⟨before, last⟩ := List.append_inj' numbered rfl
  refine ⟨⟨before, ?_, ?_⟩, ?_, new order (by simp), near order (by simp)⟩
  next => exact fun other member => new other (List.mem_append_left _ member)
  next => exact fun other member => near other (List.mem_append_left _ member)
  next =>
    have number : order.seqNum = 1 + 1 * orders.length := by simpa using last
    omega

-- The feed raises an alarm for a number that comes again and for numbers that do not come.
def LogEvent.feedAlarm : LogEvent → Bool
  | .duplicateFeed _ => true
  | .sequenceGap _ _ => true
  | _ => false

theorem Exchange.after_seqs (orders : List ParsedOrder) :
    (after orders).seqs = (orders.map ParsedOrder.seqNum).reverse := by
  induction orders using List.reverseRecOn with
  | nil => rfl
  | append_singleton orders order ih =>
    rw [after, List.foldl_append, List.foldl_cons, List.foldl_nil, receive_seqs,
      show List.foldl receive {} orders = after orders from rfl, ih]
    simp

-- A number above all earlier ones repeats none of them.
theorem repeats_above {seqs : List Nat} {seqNum : Nat}
    (above : ∀ earlier, earlier ∈ seqs → earlier < seqNum) : repeats seqs seqNum = false := by
  rw [repeats, decide_eq_false_iff_not]
  intro found
  exact Nat.lt_irrefl _ (above seqNum (List.mem_of_find?_eq_some found))

theorem Gapless.fresh {orders : List ParsedOrder} (gapless : Gapless orders) :
    repeats (Exchange.after orders).seqs (orders.length + 1) = false := by
  apply repeats_above
  intro earlier member
  rw [Exchange.after_seqs, gapless.numbered, List.mem_reverse, List.mem_range'_1] at member
  omega

namespace Ingress

variable (ingress : Ingress) (protocol : ProtocolType) (packet : Packet)

theorem checkGap_next {seqNum : Nat} (expected : ingress.gapDetector = { expectedSeq := seqNum + 1 })
    (few : seqNum + 2 < 2 ^ 64) :
    ingress.checkGap (seqNum + 1) =
      (none, { ingress with gapDetector := { expectedSeq := seqNum + 2 } }) := by
  have wrap : u64 (seqNum + 1 + 1) = seqNum + 2 := Nat.mod_eq_of_lt few
  simp [checkGap, expected, SequenceGapDetector.processSequence, wrap]

theorem screen_next (fresh : ingress.suppresses (packet.seqNum protocol) = false)
    {seqNum : Nat} (next : packet.seqNum protocol = seqNum + 1)
    (expected : ingress.gapDetector = { expectedSeq := seqNum + 1 }) (few : seqNum + 2 < 2 ^ 64) :
    let screening := ingress.screen protocol packet
    screening.gap = none ∧
      screening.risk = some (evaluate ingress.riskMgr.limits screening.order referencePrice) ∧
      screening.ingress.gapDetector = { expectedSeq := seqNum + 2 } := by
  have passes : (ingress.arbitrate (packet.seqNum protocol)).1 = false := by
    rw [ingress.arbitrate_duplicate, fresh]
  have detector : (ingress.arbitrate (packet.seqNum protocol)).2.gapDetector =
      { expectedSeq := seqNum + 1 } := by
    rw [← expected, arbitrate]
    split <;> rfl
  have checked := (ingress.arbitrate (packet.seqNum protocol)).2.checkGap_next detector few
  rw [← next] at checked
  have risk := ingress.screen_risk protocol packet
  rw [screen_seqNum, fresh, if_neg (by decide)] at risk
  refine ⟨?_, risk, ?_⟩
  all_goals
    simp only [screen]
    rw [show (ProtocolParser.received protocol packet.payload packet.staleId).seqNum = packet.seqNum protocol
      from rfl, passes, if_neg (by decide), checked]

end Ingress

namespace HftOrderBookEngine

theorem step_counted (engine : HftOrderBookEngine) (packet : Packet) {risk : RiskCheckResult}
    (passes : (engine.ingress.screen engine.protocolType packet).risk = some risk) :
    (engine.step packet).telemetry =
      engine.telemetry.count (risk = .approved) packet.latencyNs := by
  simp only [step, passes]
  split <;> rfl

theorem step_log (engine : HftOrderBookEngine) (packet : Packet) :
    ∃ trades, (engine.step packet).log =
        engine.log ++ (engine.ingress.screen engine.protocolType packet).events requestName ++ trades ∧
      ∀ event ∈ trades, event.feedAlarm = false := by
  rcases engine.step_cases packet with ⟨-, step⟩ | ⟨telemetry, step⟩ <;> rw [step]
  next => exact ⟨[], by simp [screened], by simp⟩
  next =>
    split
    next =>
      refine ⟨_, rfl, ?_⟩
      intro event member
      obtain ⟨trade, -, rfl⟩ := List.mem_map.mp member
      rfl
    next => exact ⟨[], by simp [screened], by simp⟩

end HftOrderBookEngine

structure Untroubled (engine : HftOrderBookEngine) (orders : List ParsedOrder) : Prop where
  submitted : engine.submitted = orders.filter fun order => decide (WithinLimits order)
  processed : engine.telemetry.messagesProcessed = orders.length
  approved : engine.telemetry.riskApproved =
    (orders.filter fun order => decide (WithinLimits order)).length
  rejected : engine.telemetry.riskRejected =
    (orders.filter fun order => !decide (WithinLimits order)).length
  detector : engine.ingress.gapDetector = { expectedSeq := orders.length + 1 }
  log : ∀ event ∈ engine.log, event.feedAlarm = false

theorem Untroubled.step {engine : HftOrderBookEngine} {orders : List ParsedOrder}
    (untroubled : Untroubled engine orders) (refines : Refines engine (Exchange.after orders))
    {packet : Packet}
    (gapless : Gapless (orders ++ [packet.order engine.protocolType]))
    (few : orders.length + 1 < 2 ^ 32) :
    Untroubled (engine.step packet) (orders ++ [packet.order engine.protocolType]) := by
  obtain ⟨before, number, new, near⟩ := gapless.split
  let screening := engine.ingress.screen engine.protocolType packet
  let order := packet.order engine.protocolType
  have read : screening.order = order :=
    engine.ingress.screen_order engine.protocolType packet
  have fresh : engine.ingress.suppresses (packet.seqNum engine.protocolType) = false := by
    have known := refines.window.suppresses_iff (packet.seqNum engine.protocolType)
    rw [show packet.seqNum engine.protocolType = orders.length + 1 from number, before.fresh] at known
    rw [show packet.seqNum engine.protocolType = orders.length + 1 from number]
    simpa using known
  obtain ⟨gap, risk, detector⟩ := engine.ingress.screen_next engine.protocolType packet fresh number
    untroubled.detector (by omega)
  have typed := engine.ingress.screen_wellTyped engine.protocolType packet
  rw [show (engine.ingress.screen engine.protocolType packet).order = order from read] at risk typed
  rw [refines.limits] at risk
  have gate := evaluate_default_iff typed near
  have handed : screening.handed = if WithinLimits order then [order] else [] := by
    simp only [Screening.handed, Screening.admitted, read, gate, new, order, screening,
      show (engine.ingress.screen engine.protocolType packet).risk = _ from risk, Option.some.injEq,
      decide_true, Bool.and_true, decide_eq_true_eq]
  have telemetry := engine.step_counted packet risk
  have approved := untroubled.approved
  have rejected := untroubled.rejected
  have all := List.length_eq_length_filter_add (l := orders) fun order => decide (WithinLimits order)
  have processed : u32 (orders.length + 1) = orders.length + 1 := Nat.mod_eq_of_lt few
  constructor
  case submitted =>
    rw [engine.step_submitted, untroubled.submitted, List.filter_append]
    refine congrArg _ (Eq.trans handed ?_)
    by_cases within : WithinLimits order <;> simp [within, order]
  case processed =>
    rw [telemetry, List.length_append, List.length_singleton]
    simp only [Telemetry.count, untroubled.processed, processed]
  case approved =>
    rw [telemetry, List.filter_append, List.length_append]
    simp only [Telemetry.count, gate, approved, u64, decide_eq_true_eq]
    by_cases within : WithinLimits order
    next => simp [within, order]; omega
    next => simp [within, order]
  case rejected =>
    rw [telemetry, List.filter_append, List.length_append]
    simp only [Telemetry.count, gate, rejected, u64, decide_eq_true_eq]
    by_cases within : WithinLimits order
    next => simp [within, order]
    next => simp [within, order]; omega
  case detector =>
    rw [engine.step_ingress, detector, List.length_append, List.length_singleton]
  case log =>
    obtain ⟨trades, logged, quiet⟩ := engine.step_log packet
    rw [logged, List.forall_mem_append, List.forall_mem_append]
    refine ⟨⟨untroubled.log, ?_⟩, quiet⟩
    simp only [Screening.events, risk, gap]
    split
    next impossible => simp at impossible
    next => simp
    next => simp [LogEvent.feedAlarm]

theorem gapless_run_untroubled (protocol : ProtocolType) (packets : List Packet)
    (gapless : Gapless (packets.map (Packet.order protocol))) (few : packets.length < 2 ^ 32) :
    Untroubled (HftOrderBookEngine.run protocol packets) (packets.map (Packet.order protocol)) := by
  induction packets using List.reverseRecOn with
  | nil => exact ⟨rfl, rfl, rfl, rfl, rfl, by simp [HftOrderBookEngine.run]⟩
  | append_singleton packets packet ih =>
    have same := (engine_run_delivery protocol packets).1
    rw [List.map_append, List.map_singleton] at gapless ⊢
    rw [List.length_append, List.length_singleton] at few
    have before := gapless.split.1
    have refines := engine_run_refines protocol packets fun other member =>
      before.near _ (List.mem_map_of_mem member)
    rw [HftOrderBookEngine.run_append]
    have step := @Untroubled.step _ _ (ih before (by omega)) refines packet
    rw [same] at step
    exact step gapless (by rwa [List.length_map])

section Meant

variable {orders meant : List ParsedOrder}

theorem withinLimits_bare (order : ParsedOrder) :
    WithinLimits (Exchange.bareOrder order) ↔ WithinLimits order :=
  ⟨fun within => { within with }, fun within => { within with }⟩

theorem Gapless.of_bare (same : orders.map Exchange.bareOrder = meant) (gapless : Gapless meant) :
    Gapless orders := by
  have each : ∀ order, order ∈ orders → Exchange.bareOrder order ∈ meant :=
    fun order member => same ▸ List.mem_map_of_mem member
  constructor
  case numbered =>
    have numbered := gapless.numbered
    rw [← same, List.map_map, List.length_map] at numbered
    exact numbered
  case new => exact fun order member => gapless.new (Exchange.bareOrder order) (each order member)
  case near => exact fun order member => gapless.near (Exchange.bareOrder order) (each order member)

theorem filter_bare (same : orders.map Exchange.bareOrder = meant) (keep : Bool → Bool) :
    (orders.filter fun order => keep (decide (WithinLimits order))).map Exchange.bareOrder =
      meant.filter fun order => keep (decide (WithinLimits order)) := by
  rw [← same, List.filter_map]
  simp only [Function.comp_def, withinLimits_bare]

theorem gapless_run_meant (protocol : ProtocolType) (packets : List Packet)
    (same : (packets.map (Packet.order protocol)).map Exchange.bareOrder = meant)
    (gapless : Gapless meant) (few : meant.length < 2 ^ 32) :
    let engine := HftOrderBookEngine.run protocol packets
    engine.submitted.map Exchange.bareOrder =
        meant.filter (fun order => decide (WithinLimits order)) ∧
      engine.telemetry.messagesProcessed = meant.length ∧
      engine.telemetry.riskApproved = meant.countP (fun order => decide (WithinLimits order)) ∧
      engine.telemetry.riskRejected = meant.countP (fun order => !decide (WithinLimits order)) ∧
      engine.ingress.gapDetector = { expectedSeq := meant.length + 1 } ∧
      ∀ event ∈ engine.log, event.feedAlarm = false := by
  have length : packets.length = meant.length := by
    have lengths := congrArg List.length same
    rwa [List.length_map, List.length_map] at lengths
  obtain ⟨submitted, processed, approved, rejected, detector, log⟩ :=
    gapless_run_untroubled protocol packets (gapless.of_bare same) (by omega)
  have counted (keep : Bool → Bool) :
      ((packets.map (Packet.order protocol)).filter
        fun order => keep (decide (WithinLimits order))).length =
        meant.countP fun order => keep (decide (WithinLimits order)) := by
    have kept := congrArg List.length (filter_bare same keep)
    rwa [List.length_map, ← List.countP_eq_length_filter (l := meant)] at kept
  rw [List.length_map, length] at processed detector
  exact ⟨(congrArg _ submitted).trans (filter_bare same id), processed, approved.trans (counted id),
    rejected.trans (counted not), detector, log⟩

end Meant

end HftFixEngine.Engine
