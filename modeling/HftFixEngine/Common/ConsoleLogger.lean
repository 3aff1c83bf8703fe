import HftFixEngine.Common.MpscWakeUp
import HftFixEngine.Protocol.Decimal

set_option autoImplicit false

namespace HftFixEngine.Common

open Protocol

inductive ConsoleCategory where
  | infoMsg
  | warnMsg
  | errorMsg
  deriving DecidableEq, Repr

def ConsoleCategory.color : ConsoleCategory → Bytes
  | .infoMsg => ascii "\x1b[32m"
  | .warnMsg => ascii "\x1b[33m"
  | .errorMsg => ascii "\x1b[31m"

structure ConsoleMessage where
  category : ConsoleCategory := .infoMsg
  message : Bytes
  fits : message.length ≤ 255

namespace ConsoleMessage

def copy (category : ConsoleCategory) (msg : Bytes) : ConsoleMessage where
  category
  message := msg.take (min msg.length 255)
  fits := Nat.le_trans (List.length_take_le ..) (Nat.min_le_right ..)

def dummy : ConsoleMessage where
  message := []
  fits := Nat.zero_le 255

variable (message : ConsoleMessage)

-- As a C string it ends at its first NUL.
def text : Bytes := message.message.takeWhile fun char => decide (char ≠ 0)

def lines : List Bytes :=
  match message.text with
  | [] => []
  | text => [message.category.color ++ text ++ ascii "\x1b[0m\n"]

end ConsoleMessage

namespace ConsoleLogger

inductive Client where
  | idle
  | log (category : ConsoleCategory) (msg : Bytes)
  | logDirect (category : ConsoleCategory) (msg : Bytes)
  | logPush
  | tryLog (category : ConsoleCategory) (msg : Bytes)
  | tryLogPush
  | shutdown
  | shutdownStore
  | shutdownPush
  | join

def Client.calling : Client → Bool
  | .logPush => true
  | .tryLogPush => true
  | .shutdownPush => true
  | _ => false

inductive Printer where
  | head
  | headLook
  | popping
  | popped (result : Option ConsoleMessage)
  | elseLook
  | draining
  | finished

end ConsoleLogger

-- `m_running` is the flag of the queue.
structure ConsoleLogger (P : Type) where
  queue : MpscQueue P ConsoleMessage := {}
  clients : P → ConsoleLogger.Client := fun _ => .idle
  printer : ConsoleLogger.Printer := .head
  joined : Bool := false
  screen : List Bytes := []
  direct : List (ConsoleCategory × Bytes) := []

namespace ConsoleLogger

variable {P : Type} [DecidableEq P] (logger : ConsoleLogger P)

def setClient (client : P) (phase : Client) : ConsoleLogger P :=
  { logger with clients := Function.update logger.clients client phase }

def callOn (client : P) (after : Client) : ConsoleLogger P :=
  let queue := logger.queue.step (.produce client)
  match queue.producers client with
  | .idle => { logger.setClient client after with queue }
  | _ => { logger with queue }

def act (client : P) : ConsoleLogger P :=
  match logger.clients client with
  | .idle => logger
  | .log category msg =>
    if logger.queue.running then
      { logger.setClient client .logPush with
        queue := logger.queue.step (.push client (.copy category msg)) }
    else logger.setClient client (.logDirect category msg)
  | .logDirect category msg =>
    { logger.setClient client .idle with direct := logger.direct ++ [(category, msg)] }
  | .logPush => logger.callOn client .idle
  | .tryLog category msg =>
    if logger.queue.running then
      { logger.setClient client .tryLogPush with
        queue := logger.queue.step (.tryPush client (.copy category msg)) }
    else logger.setClient client .idle
  | .tryLogPush => logger.callOn client .idle
  | .shutdown =>
    logger.setClient client (if logger.queue.running then .shutdownStore else .idle)
  | .shutdownStore =>
    { logger.setClient client .shutdownPush with
      queue := (logger.queue.step (.setRunning false)).step (.push client .dummy) }
  | .shutdownPush => logger.callOn client .join
  | .join =>
    if logger.joined then logger.setClient client .idle
    else
      match logger.printer with
      | .finished => { logger.setClient client .idle with joined := true }
      | _ => logger

def startPop (queue : MpscQueue P ConsoleMessage) (call : MpscQueue.Pop) (printer : Printer) :
    ConsoleLogger P :=
  { logger with queue := queue.step (.pop call), printer }

def startLook (printer : Printer) : ConsoleLogger P :=
  { logger with queue := logger.queue.step .look, printer }

def print : ConsoleLogger P :=
  let queue := logger.queue.step .consume
  match logger.printer with
  | .head =>
    if logger.queue.running then logger.startPop logger.queue .popWithTimeout .popping
    else logger.startLook .headLook
  | .headLook =>
    match logger.queue.consumer with
    | .lookUnlock [] => logger.startPop queue .tryPop .draining
    | .lookUnlock _ => logger.startPop queue .popWithTimeout .popping
    | _ => { logger with queue }
  | .popping =>
    match logger.queue.consumer with
    | .unlock _ result => { logger with queue, printer := .popped result }
    | _ => { logger with queue }
  | .popped result =>
    match result.toList.flatMap ConsoleMessage.lines with
    | [] =>
      if logger.queue.running then { logger with printer := .head } else logger.startLook .elseLook
    | lines => { logger with screen := logger.screen ++ lines, printer := .head }
  | .elseLook =>
    match logger.queue.consumer with
    | .lookUnlock [] => logger.startPop queue .tryPop .draining
    | .lookUnlock _ => { logger with queue, printer := .head }
    | _ => { logger with queue }
  | .draining =>
    match logger.queue.consumer with
    | .unlock _ (some message) =>
      { logger.startPop queue .tryPop .draining with screen := logger.screen ++ message.lines }
    | .unlock _ none => { logger with queue, printer := .finished }
    | _ => { logger with queue }
  | .finished => logger

-- A thread enters a call or takes its next step, or a wait of the printing thread ends by itself.
inductive Action (P : Type) where
  | log (client : P) (category : ConsoleCategory) (msg : Bytes)
  | tryLog (client : P) (category : ConsoleCategory) (msg : Bytes)
  | shutdown (client : P)
  | act (client : P)
  | print
  | timeout
  | spurious

def enter (client : P) (call : Client) : ConsoleLogger P :=
  match logger.clients client with
  | .idle => logger.setClient client call
  | _ => logger

def step : Action P → ConsoleLogger P
  | .log client category msg => logger.enter client (.log category msg)
  | .tryLog client category msg => logger.enter client (.tryLog category msg)
  | .shutdown client => logger.enter client .shutdown
  | .act client => logger.act client
  | .print => logger.print
  | .timeout => { logger with queue := logger.queue.step .timeout }
  | .spurious => { logger with queue := logger.queue.step .spurious }

def run (actions : List (Action P)) : ConsoleLogger P := actions.foldl step logger

end ConsoleLogger

end HftFixEngine.Common
