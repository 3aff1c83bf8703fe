import HftFixEngine.Common.Handoff
import HftFixEngine.Engine.Pipeline
import HftFixEngine.Engine.TelemetryLaw

set_option autoImplicit false

namespace HftFixEngine.Monitoring

open Common Engine Protocol Word

inductive Counter where
  | messagesProcessed
  | riskApproved
  | riskRejected
  | totalLatencyNs
  | approvedTotalLatencyNs
  | rejectedTotalLatencyNs
  | minLatencyNs
  | maxLatencyNs
  deriving DecidableEq, Repr

namespace Counter

def value (telemetry : Telemetry) : Counter → Nat
  | messagesProcessed => telemetry.messagesProcessed
  | riskApproved => telemetry.riskApproved
  | riskRejected => telemetry.riskRejected
  | totalLatencyNs => telemetry.totalLatencyNs
  | approvedTotalLatencyNs => telemetry.approvedTotalLatencyNs
  | rejectedTotalLatencyNs => telemetry.rejectedTotalLatencyNs
  | minLatencyNs => telemetry.minLatencyNs
  | maxLatencyNs => telemetry.maxLatencyNs

def stores : List Counter :=
  [messagesProcessed, riskApproved, riskRejected, totalLatencyNs, approvedTotalLatencyNs,
    rejectedTotalLatencyNs, minLatencyNs, maxLatencyNs]

theorem stores_all (counter : Counter) : counter ∈ stores := by
  cases counter <;> decide

theorem stores_nodup : stores.Nodup := by decide

end Counter

inductive Register where
  | counter (counter : Counter)
  | framesCaptured
  | writePos
  | readPos
  deriving DecidableEq, Repr

abbrev Sample := Register → Nat

namespace Sample

-- `m_queue.size()` loads the write index first.
def sampleLoads : List Register :=
  [.counter .messagesProcessed, .framesCaptured, .writePos, .readPos, .counter .riskApproved,
    .counter .riskRejected, .counter .approvedTotalLatencyNs, .counter .rejectedTotalLatencyNs,
    .counter .totalLatencyNs, .counter .minLatencyNs, .counter .maxLatencyNs]

def finalLoads : List Register :=
  [.counter .messagesProcessed, .framesCaptured, .counter .riskApproved, .counter .riskRejected,
    .counter .approvedTotalLatencyNs, .counter .rejectedTotalLatencyNs, .counter .totalLatencyNs,
    .writePos, .readPos]

def loads (final : Bool) : List Register :=
  if final then finalLoads else sampleLoads

def processed (sample : Sample) : Nat := sample (.counter .messagesProcessed)

def approved (sample : Sample) : Nat := sample (.counter .riskApproved)

def rejected (sample : Sample) : Nat := sample (.counter .riskRejected)

def queueLen (sample : Sample) : Nat :=
  queueCapacity.available (sample .writePos) (sample .readPos)

def minLatency (sample : Sample) : Nat :=
  let minLat := sample (.counter .minLatencyNs)
  if minLat = 2 ^ 64 - 1 then 0 else minLat

end Sample

structure Row where
  final : Bool
  deltaProcessed : Nat
  minLatency : Nat
  maxLatency : Nat
  sample : Sample

inductive Phase where
  | loopHead
  | loading (final : Bool) (loads : List Register)
  | returned

structure Monitor where
  phase : Phase := .loopHead
  sample : Sample := fun _ => 0
  lastProcessed : Nat := 0
  rows : List Row := []

namespace Monitor

def finalRow (monitor : Monitor) : Row where
  final := true
  deltaProcessed := 0
  minLatency := 0
  maxLatency := 0
  sample := monitor.sample

def nextRow (monitor : Monitor) : Row where
  final := false
  deltaProcessed :=
    if monitor.sample.processed ≥ monitor.lastProcessed then
      monitor.sample.processed - monitor.lastProcessed
    else 0
  minLatency := monitor.sample.minLatency
  maxLatency := monitor.sample (.counter .maxLatencyNs)
  sample := monitor.sample

def step (gRunning : Bool) (memory : Sample) (monitor : Monitor) : Monitor :=
  match monitor.phase with
  | .loopHead =>
    { monitor with
      phase := .loading (!gRunning) (Sample.loads (!gRunning))
      sample := fun _ => 0 }
  | .loading final (register :: loads) =>
    { monitor with
      phase := .loading final loads
      sample := Function.update monitor.sample register (memory register) }
  | .loading true [] =>
    { monitor with phase := .returned, rows := monitor.rows ++ [monitor.finalRow] }
  | .loading false [] =>
    { monitor with
      phase := .loopHead
      lastProcessed := monitor.sample.processed
      rows := monitor.rows ++ [monitor.nextRow] }
  | .returned => monitor

end Monitor

structure Session (T : Type) where
  handoff : Handoff T Packet
  counting : Bool := false
  rxCount : Nat := 0
  framesCaptured : Nat := 0
  accounts : Accounts := {}
  stores : List Counter := []
  shared : Counter → Nat := Counter.value {}
  gRunning : Bool := true
  monitor : Monitor := {}
  received : Nat := 0

namespace Session

variable {T : Type}

def memory (session : Session T) : Sample
  | .counter counter => session.shared counter
  | .framesCaptured => session.framesCaptured
  | .writePos => session.handoff.queue.writePos
  | .readPos => session.handoff.queue.readPos

def receive (packet : T) (session : Session T) : Session T :=
  if session.counting then session
  else
    match session.handoff.sending with
    | .ready =>
      { session with
        handoff := session.handoff.startSend packet
        received := session.received + 1 }
    | _ => session

-- A packet is counted also when its push was given up.
def send (session : Session T) : Session T :=
  if session.counting then
    { session with
      counting := false
      rxCount := u64 (session.rxCount + 1)
      framesCaptured := u64 (session.rxCount + 1) }
  else
    match session.handoff.sending.packet? with
    | none => session
    | some _ =>
      let handoff := session.handoff.send queueCapacity session.gRunning
      { session with
        handoff
        counting := handoff.sending.packet?.isNone }

def work (protocol : ProtocolType) (observe : T → Packet) (session : Session T) : Session T :=
  match session.stores with
  | counter :: stores =>
    { session with
      stores
      shared := Function.update session.shared counter (counter.value session.accounts.telemetry) }
  | [] =>
    let handoff := session.handoff.work queueCapacity packetsPerBatch observe
    match session.handoff.batch with
    | packet :: _ =>
      let screening := session.accounts.ingress.screen protocol (observe packet)
      { session with
        handoff
        accounts := session.accounts.step protocol (observe packet)
        stores := if screening.risk.isSome then Counter.stores else [] }
    | [] => { session with handoff }

end Session

inductive Event (T : Type) where
  | receive (packet : T)
  | send
  | work (observe : T → Packet)
  | monitor
  | stop

namespace Session

variable {T : Type}

-- `stop` is the store of `g_running`, by the launcher behind its joins or by a signal.
def step (protocol : ProtocolType) (session : Session T) : Event T → Session T
  | .receive packet => session.receive packet
  | .send => session.send
  | .work observe => session.work protocol observe
  | .monitor =>
    { session with monitor := session.monitor.step session.gRunning session.memory }
  | .stop => { session with gRunning := false }

def start (cells : Nat → T) : Session T where
  handoff := { queue := { buffer := cells } }

def run (protocol : ProtocolType) (cells : Nat → T) (schedule : List (Event T)) : Session T :=
  schedule.foldl (step protocol) (start cells)

end Session

end HftFixEngine.Monitoring
