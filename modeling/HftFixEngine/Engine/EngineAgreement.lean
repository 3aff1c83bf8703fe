import HftFixEngine.Engine.AtMostOnce
import HftFixEngine.Matching.CallAgreement
import HftFixEngine.Shared.Run

set_option autoImplicit false

namespace HftFixEngine.Engine

open Protocol Networking Matching Word

def LogEvent.renamed (requestName : Bytes) : LogEvent → LogEvent
  | .sequenceGap _ gap => .sequenceGap requestName gap
  | event => event

theorem Screening.events_renamed (screening : Screening) (requestName other : Bytes) :
    (screening.events requestName).map (LogEvent.renamed other) = screening.events other := by
  unfold Screening.events
  split <;> simp [LogEvent.renamed, Function.comp_def]

def eventOf (report : TradeReport) : LogEvent :=
  .matchedTrade report.tradeId report.symbol report.buyClOrdId report.sellClOrdId report.matchQty
    report.matchPrice

theorem engine_tradeEvent : HftOrderBookEngine.tradeEvent = eventOf ∘ ZeroAllocTrade.report := rfl

theorem worker_tradeEvent : MatchingWorker.tradeEvent = eventOf ∘ TradeExecution.report := rfl

-- What one worker shows and keeps, the other does too, but for the name of a request in the log.
structure Alike (engine : HftOrderBookEngine) (worker : MatchingWorker) : Prop where
  protocolType : engine.protocolType = worker.protocolType
  ingress : engine.ingress = worker.ingress
  telemetry : engine.telemetry = worker.telemetry
  log : engine.log = worker.log.map (LogEvent.renamed HftOrderBookEngine.requestName)
  submitted : engine.submitted = worker.submitted
  book : engine.session.book.abs = worker.matchingEngine.findBook MatchingEngine.defaultSymbol
  tradeCounter : engine.session.tradeCounter = worker.matchingEngine.tradeCounter

def Accommodates (engine : HftOrderBookEngine) (packet : Packet) : Prop :=
  ∀ order, order ∈ (engine.ingress.screen engine.protocolType packet).handed →
    Suits engine.session.book order ∧
      MatchingEngine.routedSymbol order = MatchingEngine.defaultSymbol

instance (engine : HftOrderBookEngine) (packet : Packet) : Decidable (Accommodates engine packet) :=
  inferInstanceAs (Decidable (∀ order,
    order ∈ (engine.ingress.screen engine.protocolType packet).handed → _ ∧ _))

structure Ready (engine : HftOrderBookEngine) : Prop where
  sessionOk : SessionOk engine.session
  named : cString engine.session.book.symbol = MatchingEngine.defaultSymbol

namespace Ready

variable {engine : HftOrderBookEngine}

theorem start (protocolType : ProtocolType) : Ready { protocolType } where
  sessionOk := Session.after_ok MatchingEngine.defaultSymbol []
  named := rfl

theorem submit (ready : Ready engine) (order : ParsedOrder) (currentTs : Nat) :
    Ready (engine.submit order currentTs) where
  sessionOk := Session.next_ok ready.sessionOk _
  named := by
    have symbol : (engine.submit order currentTs).session.book.symbol =
        engine.session.book.symbol := ZeroAllocHftOrderBook.submitOrder_symbol _ _ _ _ _ _ _
    rw [symbol]
    exact ready.named

theorem screened (ready : Ready engine) (packet : Packet) : Ready (engine.screened packet) :=
  ⟨ready.sessionOk, ready.named⟩

theorem step (ready : Ready engine) (packet : Packet) : Ready (engine.step packet) := by
  rcases engine.step_cases packet with ⟨-, step⟩ | ⟨telemetry, step⟩
  next => exact step ▸ ready.screened packet
  next =>
    rw [step]
    split
    next =>
      have submitted := (ready.screened packet).submit
        (engine.ingress.screen engine.protocolType packet).order packet.currentTs
      exact ⟨submitted.sessionOk, submitted.named⟩
    next => exact ⟨ready.sessionOk, ready.named⟩

end Ready

namespace HftOrderBookEngine

variable (engine : HftOrderBookEngine) {packet : Packet}

theorem step_of_duplicate
    (duplicate : (engine.ingress.screen engine.protocolType packet).risk = none) :
    engine.step packet = engine.screened packet := by
  simp only [step, screened]
  rw [duplicate]

theorem step_of_risk {result : RiskCheckResult}
    (risk : (engine.ingress.screen engine.protocolType packet).risk = some result) :
    let screening := engine.ingress.screen engine.protocolType packet
    engine.step packet =
      { (if screening.admitted then
          (engine.screened packet).submit screening.order packet.currentTs
        else engine.screened packet) with
        telemetry := engine.telemetry.count (result = .approved) packet.latencyNs } := by
  intro screening
  simp only [step, screened, screening]
  rw [risk]
  cases (engine.ingress.screen engine.protocolType packet).admitted <;> rfl

end HftOrderBookEngine

namespace MatchingWorker

section Step

variable (worker : MatchingWorker) {packet : Packet} (going : worker.stopped = false)

include going

theorem step_of_duplicate
    (duplicate : (worker.ingress.screen worker.protocolType packet).risk = none) :
    worker.step packet = worker.screened packet := by
  simp only [step, screened, going, Bool.false_eq_true, if_false]
  rw [duplicate]

theorem step_of_risk {result : RiskCheckResult}
    (risk : (worker.ingress.screen worker.protocolType packet).risk = some result) :
    let screening := worker.ingress.screen worker.protocolType packet
    let telemetry := worker.telemetry.count (result = .approved) packet.latencyNs
    worker.step packet =
      { (if screening.admitted then
          (worker.screened packet).submit screening.order packet.currentTs
        else worker.screened packet) with
        telemetry
        stopped := decide (telemetry.messagesProcessed ≥ worker.expectedMessages) } := by
  intro screening telemetry
  simp only [step, screened, screening, telemetry, going, Bool.false_eq_true, if_false]
  rw [risk]
  cases (worker.ingress.screen worker.protocolType packet).admitted <;> rfl

end Step

-- The flag of a call says whether it made a trade, so the test of both is one of the trades.
theorem matched_of_trades {τ : Type} (book : MatchingBook τ) (order : ParsedOrder) (tag : τ)
    (tradeCounter timestampNs : Nat)
    (some : (book.submitOrder order tag [] tradeCounter timestampNs).trades ≠ []) :
    (book.submitOrder order tag [] tradeCounter timestampNs).matched = true := by
  cases side : Direction.ofSide order.side with
  | none =>
    rw [MatchingBook.submitOrder_ignored book order tag [] tradeCounter timestampNs side] at some
    exact absurd rfl some
  | some d =>
    rw [MatchingBook.submitOrder_eq book order tag [] tradeCounter timestampNs side] at some ⊢
    have booked (fills : List (LimitOrderEntry τ × Nat)) (ledger : Ledger τ)
        (made : ledger.trades ≠ [] → ledger.matched = true) :
        (fills.foldl (book.incoming d order tag timestampNs).record ledger).trades ≠ [] →
          (fills.foldl (book.incoming d order tag timestampNs).record ledger).matched = true := by
      induction fills generalizing ledger with
      | nil => exact made
      | cons fill fills ih => exact ih _ fun _ => rfl
    exact booked _ (book.ledger [] tradeCounter) (fun none => absurd rfl none) some

theorem findBook_storeBook {τ : Type} (symbol : Bytes) (book : MatchingBook τ)
    (books : List (Bytes × MatchingBook τ)) (tradeCounter : Nat) :
    (MatchingEngine.mk (MatchingEngine.storeBook symbol book books) tradeCounter).findBook symbol =
      book := by
  rw [MatchingEngine.findBook, MatchingEngine.lookup_storeBook, if_pos rfl, Option.getD_some]

theorem submit_log (worker : MatchingWorker) (order : ParsedOrder) (currentTs : Nat) :
    (worker.submit order currentTs).log =
      worker.log ++ (((worker.matchingEngine.findBook
        (MatchingEngine.routedSymbol order)).submitOrder order order []
          worker.matchingEngine.tradeCounter currentTs).trades.map tradeEvent) := by
  have matched := matched_of_trades
    (worker.matchingEngine.findBook (MatchingEngine.routedSymbol order)) order order
    worker.matchingEngine.tradeCounter currentTs
  have logged (done : Submission ParsedOrder) (flagged : done.trades ≠ [] → done.matched = true) :
      (if done.matched ∧ done.trades ≠ [] then done.trades.map tradeEvent else []) =
        done.trades.map tradeEvent := by
    by_cases none : done.trades = []
    next => simp [none]
    next => rw [if_pos ⟨flagged none, none⟩]
  exact congrArg (worker.log ++ ·) (logged _ matched)

end MatchingWorker

namespace Alike

variable {engine : HftOrderBookEngine} {worker : MatchingWorker}

theorem screened (alike : Alike engine worker) (packet : Packet) :
    Alike (engine.screened packet) (worker.screened packet) where
  protocolType := alike.protocolType
  ingress := by
    simp only [HftOrderBookEngine.screened, MatchingWorker.screened, alike.ingress,
      alike.protocolType]
  telemetry := alike.telemetry
  log := by
    simp only [HftOrderBookEngine.screened, MatchingWorker.screened, alike.ingress,
      alike.protocolType, alike.log, List.map_append, Screening.events_renamed]
  submitted := alike.submitted
  book := alike.book
  tradeCounter := alike.tradeCounter

theorem submit (alike : Alike engine worker) (ready : Ready engine) {order : ParsedOrder}
    (suits : Suits engine.session.book order)
    (routed : MatchingEngine.routedSymbol order = MatchingEngine.defaultSymbol) (currentTs : Nat) :
    Alike (engine.submit order currentTs) (worker.submit order currentTs) := by
  let arrival : Arrival ParsedOrder := { order, tag := order, timestampNs := currentTs }
  have named : (cString engine.session.book.symbol).length < symbolLen := by
    rw [ready.named]
    decide
  have abs := Session.next_abs ready.sessionOk arrival suits
  have counter := Session.next_tradeCounter ready.sessionOk arrival suits
  have reports := Session.next_reports ready.sessionOk arrival suits named
  rw [alike.book, alike.tradeCounter] at abs counter reports
  constructor
  case protocolType => exact alike.protocolType
  case ingress => exact alike.ingress
  case telemetry => exact alike.telemetry
  case submitted => exact congrArg (· ++ [order]) alike.submitted
  case log =>
    have events := congrArg (List.map eventOf) reports
    rw [List.map_map, List.map_map, ← engine_tradeEvent, ← worker_tradeEvent] at events
    have plain (executions : List ZeroAllocTrade) :
        (executions.map HftOrderBookEngine.tradeEvent).map
          (LogEvent.renamed HftOrderBookEngine.requestName) =
            executions.map HftOrderBookEngine.tradeEvent := by
      rw [List.map_map]
      rfl
    rw [worker.submit_log order currentTs, routed, ← events, List.map_append, plain, ← alike.log]
    rfl
  case book =>
    refine abs.trans ?_
    simp only [MatchingWorker.submit, MatchingEngine.processOrder, routed,
      MatchingWorker.findBook_storeBook]
    rfl
  case tradeCounter =>
    refine counter.trans ?_
    simp only [MatchingWorker.submit, MatchingEngine.processOrder, routed]
    rfl

theorem step (alike : Alike engine worker) (ready : Ready engine)
    (going : worker.stopped = false) {packet : Packet} (accommodates : Accommodates engine packet) :
    Alike (engine.step packet) (worker.step packet) := by
  have same : engine.ingress.screen engine.protocolType packet =
      worker.ingress.screen worker.protocolType packet := by
    rw [alike.ingress, alike.protocolType]
  have screened := alike.screened packet
  have counted (approved : Bool) (latency : Nat) :
      engine.telemetry.count approved latency = worker.telemetry.count approved latency := by
    rw [alike.telemetry]
  cases risk : (engine.ingress.screen engine.protocolType packet).risk with
  | none =>
    rw [engine.step_of_duplicate risk, worker.step_of_duplicate going (same ▸ risk)]
    exact screened
  | some result =>
    rw [engine.step_of_risk risk, worker.step_of_risk going (same ▸ risk), ← same, counted]
    by_cases admitted : (engine.ingress.screen engine.protocolType packet).admitted = true
    next =>
      obtain ⟨suits, routed⟩ := accommodates
        (engine.ingress.screen engine.protocolType packet).order
        (by simp [Screening.handed, admitted])
      have submitted := screened.submit (ready.screened packet) suits routed packet.currentTs
      rw [if_pos admitted, if_pos admitted]
      exact { submitted with telemetry := rfl }
    next =>
      rw [if_neg admitted, if_neg admitted]
      exact { screened with telemetry := rfl }

end Alike

theorem engine_run_ready (protocol : ProtocolType) (packets : List Packet) :
    Ready (HftOrderBookEngine.run protocol packets) :=
  List.foldlRecOn packets _ (Ready.start protocol) fun _ ready packet _ => ready.step packet

theorem engines_agree (protocol : ProtocolType) (expectedMessages : Nat) (packets : List Packet)
    (accommodated : Run.Guarded HftOrderBookEngine.step Accommodates { protocolType := protocol }
      packets) :
    let worker := MatchingWorker.run protocol expectedMessages packets
    ∃ looked, looked <+: packets ∧ (worker.stopped = false → looked = packets) ∧
      Alike (HftOrderBookEngine.run protocol looked) worker := by
  induction packets using List.reverseRecOn with
  | nil =>
    exact ⟨[], List.prefix_refl _, fun _ => rfl, by constructor <;> rfl⟩
  | append_singleton packets packet ih =>
    obtain ⟨earlier, last⟩ := Run.guarded_append.mp accommodated
    obtain ⟨looked, before, all, alike⟩ := ih earlier
    rw [MatchingWorker.run_append]
    cases going : (MatchingWorker.run protocol expectedMessages packets).stopped with
    | true =>
      rw [MatchingWorker.step_of_stopped _ packet going]
      exact ⟨looked, before.trans (List.prefix_append _ _), by simp [going], alike⟩
    | false =>
      obtain rfl := all going
      refine ⟨looked ++ [packet], List.prefix_refl _, fun _ => rfl, ?_⟩
      rw [HftOrderBookEngine.run_append]
      exact alike.step (engine_run_ready protocol looked) going last.1

-- An offer, a bid that takes part of it, the bid once more, and an offer too large for the gate.
def offerAndBids : List Packet :=
  [sbePacket ⟨1, 7, 35000000, 10, 2, MatchingEngine.defaultSymbol⟩,
    sbePacket ⟨2, 8, 35000000, 4, 1, MatchingEngine.defaultSymbol⟩,
    sbePacket ⟨2, 8, 35000000, 4, 1, MatchingEngine.defaultSymbol⟩,
    sbePacket ⟨4, 9, 35000000, 60000, 2, MatchingEngine.defaultSymbol⟩]

theorem engines_agree_offerAndBids :
    (MatchingWorker.run .sbe 9 offerAndBids).log.length = 4 ∧
      (HftOrderBookEngine.run .sbe offerAndBids).log =
        (MatchingWorker.run .sbe 9 offerAndBids).log.map
          (LogEvent.renamed HftOrderBookEngine.requestName) := by
  obtain ⟨looked, -, all, alike⟩ := engines_agree .sbe 9 offerAndBids (by decide +kernel)
  obtain rfl := all (by decide +kernel)
  exact ⟨by decide +kernel, alike.log⟩

end HftFixEngine.Engine
