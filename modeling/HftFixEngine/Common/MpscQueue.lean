import HftFixEngine.Shared.Monitor
import Mathlib.Logic.Function.Basic

set_option autoImplicit false

namespace HftFixEngine.Common

namespace MpscQueue

inductive Producer (T : Type) where
  | idle
  | push (item : T)
  | pushFind (item : T)
  | pushWrite (item : T) (found : List T)
  | pushUnlock (item : T)
  | pushNotify (item : T)
  | tryPush (item : T)
  | tryPushFind (item : T)
  | tryPushWrite (item : T) (found : List T)
  | tryPushNotify (item : T)
  | tryPushUnlock (item : T)
  | notifyAll
  | notifyAllSignal
  | notifyAllUnlock

namespace Producer

variable {T : Type}

def inside : Producer T → Bool
  | .pushFind _ => true
  | .pushWrite _ _ => true
  | .pushUnlock _ => true
  | .tryPushFind _ => true
  | .tryPushWrite _ _ => true
  | .tryPushNotify _ => true
  | .tryPushUnlock _ => true
  | .notifyAllSignal => true
  | .notifyAllUnlock => true
  | _ => false

def found : Producer T → Option (List T)
  | .pushWrite _ found => some found
  | .tryPushWrite _ found => some found
  | _ => none

def inserted : Producer T → List T
  | .pushUnlock item => [item]
  | .pushNotify item => [item]
  | .tryPushNotify item => [item]
  | .tryPushUnlock item => [item]
  | _ => []

def notifying : Producer T → Bool
  | .pushUnlock _ => true
  | .pushNotify _ => true
  | .tryPushNotify _ => true
  | _ => false

end Producer

inductive Pop where
  | pop
  | popWithTimeout
  | tryPop
  deriving DecidableEq, Repr

inductive Consumer (T : Type) where
  | idle
  | lock (call : Pop)
  | check (call : Pop)
  | asleep (call : Pop)
  | awake (call : Pop)
  | expired
  | take (call : Pop)
  | move (call : Pop) (item : T) (rest : List T)
  | unlock (call : Pop) (result : Option T)
  | look
  | lookFind
  | lookUnlock (found : List T)

namespace Consumer

variable {T : Type}

def inside : Consumer T → Bool
  | .check _ => true
  | .take _ => true
  | .move _ _ _ => true
  | .unlock _ _ => true
  | .lookFind => true
  | .lookUnlock _ => true
  | _ => false

def found : Consumer T → Option (List T)
  | .move _ item rest => some (item :: rest)
  | .unlock _ none => some []
  | .lookUnlock found => some found
  | _ => none

def sleeping : Consumer T → Bool
  | .asleep _ => true
  | _ => false

def notified : Consumer T → Consumer T
  | .asleep call => .awake call
  | consumer => consumer

def waiting : Consumer T → Bool
  | .lock _ => true
  | .check _ => true
  | .asleep _ => true
  | .awake _ => true
  | .expired => true
  | .take _ => true
  | _ => false

def timeout : Consumer T → Consumer T
  | .asleep .popWithTimeout => .expired
  | .awake .popWithTimeout => .expired
  | consumer => consumer

end Consumer

end MpscQueue

-- The container is plain memory: an operation on it finds its contents in one step and writes them in
-- another. Everything from `accepted` on is ghost. The consumer is the thread `none`.
structure MpscQueue (P T : Type) where
  queue : List T := []
  owner : Option (Option P) := none
  running : Bool := true
  producers : P → MpscQueue.Producer T := fun _ => .idle
  consumer : MpscQueue.Consumer T := .idle
  accepted : List (P × T) := []
  completed : P → List T := fun _ => []
  removed : List T := []

namespace MpscQueue

variable {P T : Type} [DecidableEq P] (exec : MpscQueue P T)

def setProducer (producer : P) (phase : Producer T) : MpscQueue P T :=
  { exec with producers := Function.update exec.producers producer phase }

-- A thread that finds the mutex taken stays where it is.
def lockProducer (producer : P) (phase : Producer T) : MpscQueue P T :=
  match exec.owner with
  | none => { exec.setProducer producer phase with owner := some (some producer) }
  | some _ => exec

def lockConsumer (phase : Consumer T) : MpscQueue P T :=
  match exec.owner with
  | none => { exec with owner := some none, consumer := phase }
  | some _ => exec

def insert (producer : P) (item : T) (found : List T) : MpscQueue P T :=
  { exec with
    queue := found ++ [item]
    accepted := exec.accepted ++ [(producer, item)] }

def complete (producer : P) (item : T) : MpscQueue P T :=
  { exec with
    completed :=
      Function.update exec.completed producer (exec.completed producer ++ [item]) }

def notify : MpscQueue P T := { exec with consumer := exec.consumer.notified }

def produce (producer : P) : MpscQueue P T :=
  match exec.producers producer with
  | .idle => exec
  | .push item => exec.lockProducer producer (.pushFind item)
  | .pushFind item => exec.setProducer producer (.pushWrite item exec.queue)
  | .pushWrite item found =>
    (exec.insert producer item found).setProducer producer (.pushUnlock item)
  | .pushUnlock item => { exec.setProducer producer (.pushNotify item) with owner := none }
  | .pushNotify item => (exec.notify.complete producer item).setProducer producer .idle
  | .tryPush item =>
    -- The only failure of a call.
    if exec.owner.isSome then exec.setProducer producer .idle
    else exec.lockProducer producer (.tryPushFind item)
  | .tryPushFind item => exec.setProducer producer (.tryPushWrite item exec.queue)
  | .tryPushWrite item found =>
    (exec.insert producer item found).setProducer producer (.tryPushNotify item)
  | .tryPushNotify item => exec.notify.setProducer producer (.tryPushUnlock item)
  | .tryPushUnlock item =>
    { (exec.complete producer item).setProducer producer .idle with owner := none }
  | .notifyAll => exec.lockProducer producer .notifyAllSignal
  | .notifyAllSignal => exec.notify.setProducer producer .notifyAllUnlock
  | .notifyAllUnlock => { exec.setProducer producer .idle with owner := none }

def consume : MpscQueue P T :=
  match exec.consumer with
  | .idle => exec
  | .lock .tryPop => exec.lockConsumer (.take .tryPop)
  | .lock call => exec.lockConsumer (.check call)
  | .check call =>
    if !exec.queue.isEmpty || !exec.running then { exec with consumer := .take call }
    else { exec with consumer := .asleep call, owner := none }
  | .asleep _ => exec
  | .awake call => exec.lockConsumer (.check call)
  | .expired => exec.lockConsumer (.take .popWithTimeout)
  | .take call =>
    match exec.queue with
    | [] => { exec with consumer := .unlock call none }
    | item :: rest => { exec with consumer := .move call item rest }
  | .move call item rest =>
    { exec with
      consumer := .unlock call (some item)
      queue := rest
      removed := exec.removed ++ [item] }
  | .unlock _ _ => { exec with consumer := .idle, owner := none }
  | .look => exec.lockConsumer .lookFind
  | .lookFind => { exec with consumer := .lookUnlock exec.queue }
  | .lookUnlock _ => { exec with consumer := .idle, owner := none }

inductive Action (P T : Type) where
  | push (producer : P) (item : T)
  | tryPush (producer : P) (item : T)
  | notifyAll (producer : P)
  | produce (producer : P)
  | pop (call : Pop)
  | look
  | consume
  | timeout
  | spurious
  | setRunning (running : Bool)

def enterProducer (producer : P) (call : Producer T) : MpscQueue P T :=
  match exec.producers producer with
  | .idle => exec.setProducer producer call
  | _ => exec

def enterConsumer (call : Consumer T) : MpscQueue P T :=
  match exec.consumer with
  | .idle => { exec with consumer := call }
  | _ => exec

def step : Action P T → MpscQueue P T
  | .push producer item => exec.enterProducer producer (.push item)
  | .tryPush producer item => exec.enterProducer producer (.tryPush item)
  | .notifyAll producer => exec.enterProducer producer .notifyAll
  | .produce producer => exec.produce producer
  | .pop call => exec.enterConsumer (.lock call)
  | .look => exec.enterConsumer .look
  | .consume => exec.consume
  | .timeout => { exec with consumer := exec.consumer.timeout }
  | .spurious => exec.notify
  | .setRunning running => { exec with running }

def run (actions : List (Action P T)) : MpscQueue P T := actions.foldl step exec

end MpscQueue

end HftFixEngine.Common
