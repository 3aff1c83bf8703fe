import HftFixEngine.Engine.Ingress
import HftFixEngine.Matching.MatchingEngine

set_option autoImplicit false

namespace HftFixEngine.Engine

open Protocol Matching Word

-- The clock check of the worker counts backward jumps and changes nothing else, so it is left
-- out; `submitted` is ghost.
structure MatchingWorker where
  protocolType : ProtocolType
  expectedMessages : Nat
  ingress : Ingress := {}
  matchingEngine : MatchingEngine ParsedOrder := {}
  telemetry : Telemetry := {}
  log : List LogEvent := []
  stopped : Bool := false
  submitted : List ParsedOrder := []

namespace MatchingWorker

def requestName : Bytes := ascii "FIX ResendRequest (35=2)"

def tradeEvent (trade : TradeExecution ParsedOrder) : LogEvent :=
  .matchedTrade trade.tradeId trade.symbol trade.buyClOrdId trade.sellClOrdId trade.matchQty
    trade.matchPrice

def submit (worker : MatchingWorker) (order : ParsedOrder) (currentTs : Nat) : MatchingWorker :=
  let (matched, matchingEngine, trades) :=
    worker.matchingEngine.processOrder order order [] currentTs
  { worker with
    matchingEngine
    log := worker.log ++ if matched ∧ trades ≠ [] then trades.map tradeEvent else []
    submitted := worker.submitted ++ [order] }

-- One turn of the packet loop of `run`; once the expected number of messages is processed the
-- loop is left and later packets are not looked at.
def step (worker : MatchingWorker) (packet : Packet) : MatchingWorker :=
  if worker.stopped then worker
  else
    let screening := worker.ingress.screen worker.protocolType packet
    let worker :=
      { worker with ingress := screening.ingress, log := worker.log ++ screening.events requestName }
    match screening.risk with
    | none => worker
    | some risk =>
      let worker :=
        if screening.admitted then worker.submit screening.order packet.currentTs else worker
      let telemetry := worker.telemetry.count (risk = .approved) packet.latencyNs
      { worker with
        telemetry
        stopped := decide (telemetry.messagesProcessed ≥ worker.expectedMessages) }

section Step

variable (worker : MatchingWorker) (packet : Packet)

theorem step_of_stopped (stopped : worker.stopped = true) : worker.step packet = worker := by
  simp [step, stopped]

def screened : MatchingWorker :=
  let screening := worker.ingress.screen worker.protocolType packet
  { worker with ingress := screening.ingress, log := worker.log ++ screening.events requestName }

theorem step_cases (going : worker.stopped = false) :
    let screening := worker.ingress.screen worker.protocolType packet
    (screening.risk = none ∧ worker.step packet = worker.screened packet) ∨
      ∃ telemetry stopped,
        worker.step packet =
          { (if screening.admitted then
              (worker.screened packet).submit screening.order packet.currentTs
            else worker.screened packet) with telemetry, stopped } := by
  intro screening
  cases risk : screening.risk with
  | none =>
      refine Or.inl ⟨rfl, ?_⟩
      simp only [step, screened, going, screening, Bool.false_eq_true, if_false] at risk ⊢
      rw [risk]
  | some result =>
      refine Or.inr ⟨(worker.step packet).telemetry, (worker.step packet).stopped, ?_⟩
      simp only [step, screened, going, screening, Bool.false_eq_true, if_false] at risk ⊢
      rw [risk]

theorem step_submitted (going : worker.stopped = false) :
    (worker.step packet).submitted =
      worker.submitted ++ (worker.ingress.screen worker.protocolType packet).handed := by
  rcases worker.step_cases packet going with ⟨duplicate, step⟩ | ⟨telemetry, stopped, step⟩ <;>
    rw [step, Screening.handed]
  next => simp [screened, Screening.not_admitted_of_duplicate duplicate]
  next => split <;> simp [screened, submit]

theorem step_ingress (going : worker.stopped = false) :
    (worker.step packet).ingress = (worker.ingress.screen worker.protocolType packet).ingress := by
  rcases worker.step_cases packet going with ⟨-, step⟩ | ⟨telemetry, stopped, step⟩ <;> rw [step]
  next => rfl
  next => split <;> rfl

theorem step_protocolType : (worker.step packet).protocolType = worker.protocolType := by
  cases going : worker.stopped with
  | true => rw [worker.step_of_stopped packet going]
  | false =>
      rcases worker.step_cases packet going with ⟨-, step⟩ | ⟨telemetry, stopped, step⟩ <;> rw [step]
      next => rfl
      next => split <;> rfl

end Step

def run (protocolType : ProtocolType) (expectedMessages : Nat) (packets : List Packet) :
    MatchingWorker :=
  packets.foldl step { protocolType, expectedMessages }

theorem run_append (protocolType : ProtocolType) (expectedMessages : Nat) (packets : List Packet)
    (packet : Packet) :
    run protocolType expectedMessages (packets ++ [packet]) =
      (run protocolType expectedMessages packets).step packet := by
  simp [run]

end MatchingWorker

end HftFixEngine.Engine
