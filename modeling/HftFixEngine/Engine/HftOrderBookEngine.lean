import HftFixEngine.Engine.Ingress
import HftFixEngine.Matching.TradeReporting

set_option autoImplicit false

namespace HftFixEngine.Engine

open Protocol Matching Word

-- `submitted` and `executions` are ghost: the orders handed to the book, and for each fill the
-- resting order and the incoming one.
structure HftOrderBookEngine where
  protocolType : ProtocolType
  ingress : Ingress := {}
  session : Session ParsedOrder := { book := ZeroAllocHftOrderBook.create MatchingEngine.defaultSymbol }
  telemetry : Telemetry := {}
  log : List LogEvent := []
  submitted : List ParsedOrder := []
  executions : List (ParsedOrder × ParsedOrder) := []

namespace HftOrderBookEngine

def requestName : Bytes := ascii "FIX ResendRequest"

def tradeEvent (trade : ZeroAllocTrade) : LogEvent :=
  .matchedTrade trade.tradeId (cString trade.symbol) (cString trade.buyClOrdId)
    (cString trade.sellClOrdId) trade.matchQty trade.matchPrice

def submit (engine : HftOrderBookEngine) (order : ParsedOrder) (currentTs : Nat) :
    HftOrderBookEngine :=
  let arrival : Arrival ParsedOrder := { order, tag := order, timestampNs := currentTs }
  let done := engine.session.submit arrival
  let session := engine.session.next arrival
  { engine with
    session
    log := engine.log ++ (Slots.first session.tradeBatch done.tradesGenerated).map tradeEvent
    submitted := engine.submitted ++ [order]
    executions := engine.executions ++ done.fills.map fun fill => (fill.1.tag, order) }

-- One turn of the packet loop of `run`.
def step (engine : HftOrderBookEngine) (packet : Packet) : HftOrderBookEngine :=
  let screening := engine.ingress.screen engine.protocolType packet
  let engine :=
    { engine with ingress := screening.ingress, log := engine.log ++ screening.events requestName }
  match screening.risk with
  | none => engine
  | some risk =>
    let engine :=
      if screening.admitted then engine.submit screening.order packet.currentTs else engine
    { engine with telemetry := engine.telemetry.count (risk = .approved) packet.latencyNs }

def screened (engine : HftOrderBookEngine) (packet : Packet) : HftOrderBookEngine :=
  let screening := engine.ingress.screen engine.protocolType packet
  { engine with ingress := screening.ingress, log := engine.log ++ screening.events requestName }

theorem step_cases (engine : HftOrderBookEngine) (packet : Packet) :
    let screening := engine.ingress.screen engine.protocolType packet
    (screening.risk = none ∧ engine.step packet = engine.screened packet) ∨
      ∃ telemetry,
        engine.step packet =
          { (if screening.admitted then
              (engine.screened packet).submit screening.order packet.currentTs
            else engine.screened packet) with telemetry } := by
  intro screening
  cases risk : screening.risk with
  | none =>
      refine Or.inl ⟨rfl, ?_⟩
      simp only [step, screened, screening] at risk ⊢
      rw [risk]
  | some result =>
      refine Or.inr ⟨(engine.step packet).telemetry, ?_⟩
      simp only [step, screened, screening] at risk ⊢
      rw [risk]

theorem step_submitted (engine : HftOrderBookEngine) (packet : Packet) :
    (engine.step packet).submitted =
      engine.submitted ++ (engine.ingress.screen engine.protocolType packet).handed := by
  rcases engine.step_cases packet with ⟨duplicate, step⟩ | ⟨telemetry, step⟩ <;>
    rw [step, Screening.handed]
  next => simp [screened, Screening.not_admitted_of_duplicate duplicate]
  next => split <;> simp [screened, submit]

theorem step_ingress (engine : HftOrderBookEngine) (packet : Packet) :
    (engine.step packet).ingress = (engine.ingress.screen engine.protocolType packet).ingress := by
  rcases engine.step_cases packet with ⟨-, step⟩ | ⟨telemetry, step⟩ <;> rw [step]
  next => rfl
  next => split <;> rfl

theorem step_protocolType (engine : HftOrderBookEngine) (packet : Packet) :
    (engine.step packet).protocolType = engine.protocolType := by
  rcases engine.step_cases packet with ⟨-, step⟩ | ⟨telemetry, step⟩ <;> rw [step]
  next => rfl
  next => split <;> rfl

def run (protocolType : ProtocolType) (packets : List Packet) : HftOrderBookEngine :=
  packets.foldl step { protocolType }

theorem run_append (protocolType : ProtocolType) (packets : List Packet) (packet : Packet) :
    run protocolType (packets ++ [packet]) = (run protocolType packets).step packet := by
  simp [run]

end HftOrderBookEngine

end HftFixEngine.Engine
