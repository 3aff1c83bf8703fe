import HftFixEngine.Common.SPSCQueue
import HftFixEngine.Engine.Ingress
import HftFixEngine.Protocol.Decimal

set_option autoImplicit false

namespace HftFixEngine.Worker

open Common Protocol Engine Word

def logCapacity : Capacity := ⟨16384, by decide +kernel, by decide +kernel⟩

-- The clocks are outside the model, so a packet brings its latency along.
structure FixMessagePacket where
  payload : Option Bytes
  ringHdr : Option Nat := none
  latencyNs : Nat
  deriving DecidableEq, Repr

namespace FixMessagePacket

def order (packet : FixMessagePacket) : ParsedOrder :=
  let parsed : ParsedOrder :=
    match packet.payload with
    | none => {}
    | some payload => FixParser.parseInPlace payload payload.length
  { parsed with latencyNs := packet.latencyNs }

end FixMessagePacket

structure LogMessage where
  timestampNs : Nat
  message : Bytes
  deriving DecidableEq, Repr

-- What the worker knows when it comes to the log. The two texts are views into the payload, and the
-- frame has been given back by then: they show what stands there at that moment.
structure LogEntry where
  packet : FixMessagePacket
  timestampNs : Nat
  clOrdId : Bytes
  symbol : Bytes
  deriving DecidableEq, Repr

namespace LogEntry

variable (priceText : Int → Bytes) (entry : LogEntry)

def text : Bytes :=
  ascii "ClOrdID=" ++ entry.clOrdId ++ ascii " | Sym=" ++ entry.symbol ++
    ascii " | Side=" ++ toCharsInt entry.packet.order.side ++
    ascii " | Qty=" ++ toCharsInt entry.packet.order.quantity ++
    ascii " | Price=" ++ priceText entry.packet.order.price ++
    ascii " | Latency=" ++ toChars entry.packet.latencyNs ++ ascii "ns"

-- `format_to_n` into 256 characters, the last of them for the terminator.
def message : LogMessage where
  timestampNs := entry.timestampNs
  message := (entry.text priceText).take 255

end LogEntry

def LogMessage.line (message : LogMessage) : Bytes :=
  ascii "TS=" ++ toChars message.timestampNs ++ ascii " | " ++
    message.message.takeWhile fun char => decide (char ≠ 0)

inductive Working where
  | head
  | packet (batch : List FixMessagePacket)
  | canPush (packet : FixMessagePacket) (batch : List FixMessagePacket)
  | push (batch : List FixMessagePacket)
  | packetEnd (batch : List FixMessagePacket)
  | finished
  deriving DecidableEq, Repr

inductive Writer where
  | head
  | empty
  | pop
  | write (message : LogMessage)
  | finished

-- Everything from `popped` on is ghost.
structure FixWorker where
  expectedMessages : Nat
  working : Working := .head
  telemetry : Telemetry := {}
  released : List Nat := []
  logQueue : Execution LogMessage
  loggingRunning : Bool := true
  writer : Writer := .head
  file : List Bytes := []
  popped : List FixMessagePacket := []
  handled : List FixMessagePacket := []
  entries : List (LogEntry × Option Nat) := []

namespace FixWorker

variable (priceText : Int → Bytes) (worker : FixWorker)

def complete : Bool := decide (worker.expectedMessages ≤ worker.telemetry.messagesProcessed)

def count (telemetry : Telemetry) (latency : Nat) : Telemetry :=
  { telemetry with
    messagesProcessed := u32 (telemetry.messagesProcessed + 1)
    totalLatencyNs := u64 (telemetry.totalLatencyNs + latency)
    minLatencyNs := min latency telemetry.minLatencyNs
    maxLatencyNs := max latency telemetry.maxLatencyNs }

def handle (packet : FixMessagePacket) (batch : List FixMessagePacket) : FixWorker :=
  { worker with
    working := .canPush packet batch
    telemetry := count worker.telemetry packet.latencyNs
    released := worker.released ++ packet.ringHdr.toList
    handled := worker.handled ++ [packet] }

def offer (entry : LogEntry) (batch : List FixMessagePacket) : FixWorker :=
  if worker.logQueue.canPush logCapacity then
    { worker with
      working := .push batch
      logQueue := worker.logQueue.enterPush (.push (entry.message priceText))
      entries := worker.entries ++ [(entry, none)] }
  else
    { worker with
      working := .packetEnd batch
      entries := worker.entries ++ [(entry, some (worker.logQueue.size logCapacity))] }

def push (batch : List FixMessagePacket) : FixWorker :=
  let logQueue := worker.logQueue.produce logCapacity
  { worker with
    logQueue
    working :=
      match logQueue.producer with
      | .idle => .packetEnd batch
      | _ => .push batch }

def work (timestampNs : Nat) (clOrdId symbol : Bytes) : FixWorker :=
  match worker.working with
  | .head => worker
  | .packet [] => { worker with working := if worker.complete then .finished else .head }
  | .packet (packet :: batch) => worker.handle packet batch
  | .canPush packet batch =>
    worker.offer priceText { packet, timestampNs, clOrdId, symbol } batch
  | .push batch => worker.push batch
  | .packetEnd batch =>
    { worker with working := if worker.complete then .finished else .packet batch }
  | .finished => worker

def takeBatch (packets : List FixMessagePacket) : FixWorker :=
  match worker.working with
  | .head =>
    { worker with
      working := if packets.isEmpty then .head else .packet (packets.take 32)
      popped := worker.popped ++ packets.take 32 }
  | _ => worker

def leave : FixWorker :=
  match worker.working with
  | .head => { worker with working := .finished }
  | _ => worker

def startPop : FixWorker :=
  { worker with writer := .pop, logQueue := worker.logQueue.enterPop .pop }

def write : FixWorker :=
  match worker.writer with
  | .head => if worker.loggingRunning then worker.startPop else { worker with writer := .empty }
  | .empty =>
    if worker.logQueue.empty then { worker with writer := .finished } else worker.startPop
  | .pop =>
    let logQueue := worker.logQueue.consume logCapacity id
    { worker with
      logQueue
      writer :=
        match worker.logQueue.consumer with
        | .popStore _ message => .write message
        | _ =>
          match logQueue.consumer with
          | .idle => .head
          | _ => .pop }
  | .write message => { worker with writer := .head, file := worker.file ++ [message.line] }
  | .finished => worker

def destroy : FixWorker :=
  match worker.working with
  | .finished => { worker with loggingRunning := false }
  | _ => worker

inductive Action where
  | takeBatch (packets : List FixMessagePacket)
  | leave
  | work (timestampNs : Nat) (clOrdId symbol : Bytes)
  | write
  | destroy

def step : Action → FixWorker
  | .takeBatch packets => worker.takeBatch packets
  | .leave => worker.leave
  | .work timestampNs clOrdId symbol => worker.work priceText timestampNs clOrdId symbol
  | .write => worker.write
  | .destroy => worker.destroy

def start (expectedMessages : Nat) (cells : Nat → LogMessage) : FixWorker where
  expectedMessages
  logQueue := { buffer := cells }

def run (expectedMessages : Nat) (cells : Nat → LogMessage) (actions : List Action) : FixWorker :=
  actions.foldl (step priceText) (start expectedMessages cells)

end FixWorker

end HftFixEngine.Worker
