import HftFixEngine.Common.Handoff
import HftFixEngine.Shared.Run

set_option autoImplicit false

namespace HftFixEngine.Engine

open Common

def queueCapacity : Capacity := ⟨8192, by decide, by decide⟩

def packetsPerBatch : Nat := 32

inductive ReceiverKind where
  | afXdp
  | packetMmap
  | udpSocket
  deriving DecidableEq, Repr

namespace ReceiverKind

def inactivityLimit : ReceiverKind → Nat
  | .afXdp => 200
  | .packetMmap => 100
  | .udpSocket => 2000

-- A frame that is not for the port, or has no payload of a valid size, carries no packet. Such a
-- frame never comes out of a socket.
def received {T : Type} (arrived : List (Option T)) : ReceiverKind → List (Option T)
  | .afXdp => arrived.take 64
  | .packetMmap => arrived.take 1
  | .udpSocket => (arrived.take 1).filter Option.isSome

-- Only the socket's branch of the loop leaves the count of empty looks as it is.
def emptyChecksAfter (emptyChecks : Nat) : ReceiverKind → Nat
  | .afXdp => 0
  | .packetMmap => 0
  | .udpSocket => emptyChecks

end ReceiverKind

inductive WorkerKind where
  | matchingWorker
  | hftOrderBookEngine
  deriving DecidableEq, Repr

structure Setup where
  receiver : ReceiverKind
  worker : WorkerKind
  deriving DecidableEq, Repr

inductive Launcher where
  | joinProducer
  | storeConsumerDone
  | joinConsumer
  | joinWorker
  | storeRunning
  | finished
  deriving DecidableEq, Repr

inductive FixProducer where
  | sending (messages : Nat)
  | storeProducerDone
  | returned
  deriving DecidableEq, Repr

inductive Receiver (T : Type) where
  | loopHead
  | receive
  | checkProducer
  | handle (frames : List (Option T))
  | push (frames : List (Option T))
  | left
  | returned

namespace Receiver

variable {T : Type}

def hasLeft : Receiver T → Bool
  | .left => true
  | .returned => true
  | _ => false

def hasReturned : Receiver T → Bool
  | .returned => true
  | _ => false

def pushing : Receiver T → Bool
  | .push _ => true
  | _ => false

end Receiver

inductive Exit where
  | drained
  | stopped
  | expected
  deriving DecidableEq, Repr

inductive Worker where
  | loopHead
  | checkQueue
  | popBatch
  | checkConsumer
  | checkEmpty
  | process
  | left (exit : Exit)
  | returned (exit : Exit)
  deriving DecidableEq, Repr

namespace Worker

def hasReturned : Worker → Bool
  | .returned _ => true
  | _ => false

def leftDrained : Worker → Bool
  | .left .drained => true
  | .returned .drained => true
  | _ => false

end Worker

structure Pipeline (T : Type) where
  handoff : Handoff T Unit
  gRunning : Bool := true
  gProducerDone : Bool := false
  gConsumerDone : Bool := false
  launcher : Launcher := .joinProducer
  producer : FixProducer
  receiver : Receiver T := .loopHead
  emptyChecks : Nat := 0
  worker : Worker := .loopHead

namespace Pipeline

variable {T : Type}

def queue (pipe : Pipeline T) : Execution T := pipe.handoff.queue

def stepLauncher (pipe : Pipeline T) : Pipeline T :=
  match pipe.launcher with
  | .joinProducer =>
    if pipe.producer = .returned then { pipe with launcher := .storeConsumerDone } else pipe
  | .storeConsumerDone => { pipe with gConsumerDone := true, launcher := .joinConsumer }
  | .joinConsumer =>
    if pipe.receiver.hasReturned then { pipe with launcher := .joinWorker } else pipe
  | .joinWorker =>
    if pipe.worker.hasReturned then { pipe with launcher := .storeRunning } else pipe
  | .storeRunning => { pipe with gRunning := false, launcher := .finished }
  | .finished => pipe

def stepProducer (pipe : Pipeline T) : Pipeline T :=
  match pipe.producer with
  | .sending 0 => { pipe with producer := .storeProducerDone }
  | .sending (messages + 1) =>
    { pipe with producer := if pipe.gRunning then .sending messages else .storeProducerDone }
  | .storeProducerDone => { pipe with gProducerDone := true, producer := .returned }
  | .returned => pipe

def push (pipe : Pipeline T) (frames : List (Option T)) : Pipeline T :=
  let handoff := pipe.handoff.send queueCapacity pipe.gRunning
  { pipe with
    handoff
    receiver := if handoff.sending.packet?.isSome then .push frames else .handle frames }

def stepReceiver (setup : Setup) (arrived : List (Option T)) (pipe : Pipeline T) : Pipeline T :=
  match pipe.receiver with
  | .loopHead => { pipe with receiver := if pipe.gRunning then .receive else .left }
  | .receive =>
    match setup.receiver.received arrived with
    | [] => { pipe with receiver := .checkProducer }
    | frames =>
      { pipe with
        emptyChecks := setup.receiver.emptyChecksAfter pipe.emptyChecks
        receiver := .handle frames }
  | .checkProducer =>
    if pipe.gProducerDone then
      { pipe with
        emptyChecks := pipe.emptyChecks + 1
        receiver :=
          if pipe.emptyChecks + 1 ≥ setup.receiver.inactivityLimit then .left else .loopHead }
    else { pipe with receiver := .loopHead }
  | .handle [] => { pipe with receiver := .loopHead }
  | .handle (none :: frames) => { pipe with receiver := .handle frames }
  | .handle (some packet :: frames) =>
    { pipe with handoff := pipe.handoff.startSend packet, receiver := .push frames }
  | .push frames => pipe.push frames
  | .left => { pipe with gConsumerDone := true, receiver := .returned }
  | .returned => pipe

def work (pipe : Pipeline T) : Handoff T Unit :=
  pipe.handoff.work queueCapacity packetsPerBatch fun _ => ()

def callPopBatch (pipe : Pipeline T) : Pipeline T :=
  { pipe with handoff := pipe.work, worker := .popBatch }

def popReturns (handoff : Handoff T Unit) : Worker :=
  match handoff.queue.consumer with
  | .idle => if handoff.batch.isEmpty then .checkConsumer else .process
  | _ => .popBatch

def processed (handoff : Handoff T Unit) : Worker :=
  if handoff.batch.isEmpty then .loopHead else .process

-- Whether a packet completes the expected messages depends on those before, so either may happen.
-- The order book engine expects no number of messages and leaves `g_running` alone.
def stepWorker (setup : Setup) (completes : Bool) (pipe : Pipeline T) : Pipeline T :=
  match pipe.worker with
  | .loopHead => if pipe.gRunning then pipe.callPopBatch else { pipe with worker := .checkQueue }
  | .checkQueue =>
    if pipe.queue.empty then { pipe with worker := .left .stopped } else pipe.callPopBatch
  | .popBatch => { pipe with handoff := pipe.work, worker := popReturns pipe.work }
  | .checkConsumer =>
    { pipe with worker := if pipe.gConsumerDone then .checkEmpty else .loopHead }
  | .checkEmpty =>
    { pipe with worker := if pipe.queue.empty then .left .drained else .loopHead }
  | .process =>
    match setup.worker with
    | .matchingWorker =>
      { pipe with
        handoff := pipe.work
        worker := if completes then .left .expected else processed pipe.work }
    | .hftOrderBookEngine => { pipe with handoff := pipe.work, worker := processed pipe.work }
  | .left exit =>
    match setup.worker with
    | .matchingWorker => { pipe with gRunning := false, worker := .returned exit }
    | .hftOrderBookEngine => { pipe with worker := .returned exit }
  | .returned _ => pipe

end Pipeline

inductive Thread (T : Type) where
  | launcher
  | producer
  | receiver (arrived : List (Option T))
  | worker (completes : Bool)

namespace Pipeline

variable {T : Type}

def step (setup : Setup) (pipe : Pipeline T) : Thread T → Pipeline T
  | .launcher => pipe.stepLauncher
  | .producer => pipe.stepProducer
  | .receiver arrived => pipe.stepReceiver setup arrived
  | .worker completes => pipe.stepWorker setup completes

def run (setup : Setup) (pipe : Pipeline T) (schedule : List (Thread T)) : Pipeline T :=
  schedule.foldl (step setup) pipe

def start (cells : Nat → T) (messages : Nat) : Pipeline T where
  handoff := { queue := { buffer := cells } }
  producer := .sending messages

def Drains (pipe : Pipeline T) : Prop :=
  pipe.worker.leftDrained = true →
    pipe.receiver.hasLeft = true ∧ pipe.queue.returned = pipe.queue.accepted

def AnnouncesInOrder (pipe : Pipeline T) : Thread T → Prop
  | .launcher => pipe.launcher = .storeConsumerDone → pipe.receiver.hasLeft = true
  | _ => True

structure Ok (pipe : Pipeline T) : Prop where
  handoff : Handoff.Ok queueCapacity pipe.handoff
  receiverIdle : pipe.receiver.pushing = false → pipe.handoff.sending = .ready
  consumerDone : pipe.gConsumerDone = true → pipe.receiver.hasLeft = true
  lastLook : pipe.worker = .checkEmpty → pipe.receiver.hasLeft = true
  drained : pipe.Drains

namespace Ok

variable {pipe : Pipeline T}

theorem start (cells : Nat → T) (messages : Nat) : Ok (start cells messages) where
  handoff := Handoff.Ok.start cells
  receiverIdle := fun _ => rfl
  consumerDone := nofun
  lastLook := nofun
  drained := nofun

theorem stepLauncher (ok : Ok pipe) (inOrder : pipe.AnnouncesInOrder .launcher) :
    Ok pipe.stepLauncher := by
  unfold Pipeline.stepLauncher
  split
  case h_2 here =>
    exact { ok with consumerDone := fun _ => inOrder here }
  all_goals
    try split
    all_goals exact { ok with }

theorem stepProducer (ok : Ok pipe) : Ok pipe.stepProducer := by
  unfold Pipeline.stepProducer
  split <;> exact { ok with }

theorem inLoop (ok : Ok pipe) (inside : pipe.receiver.hasLeft = false) :
    pipe.gConsumerDone ≠ true ∧ pipe.worker ≠ .checkEmpty ∧ pipe.worker.leftDrained ≠ true := by
  have notLeft : ¬ pipe.receiver.hasLeft = true := by simp [inside]
  exact ⟨fun done => notLeft (ok.consumerDone done), fun look => notLeft (ok.lastLook look),
    fun left => notLeft (ok.drained left).1⟩

theorem receiverMoves (ok : Ok pipe) (inside : pipe.receiver.hasLeft = false)
    {handoff : Handoff T Unit} {receiver : Receiver T} {emptyChecks : Nat}
    (handoffOk : Handoff.Ok queueCapacity handoff)
    (idle : receiver.pushing = false → handoff.sending = .ready) :
    Ok { pipe with handoff, receiver, emptyChecks } := by
  obtain ⟨notDone, notLooking, notLeft⟩ := ok.inLoop inside
  constructor
  case handoff => exact handoffOk
  case receiverIdle => exact idle
  case consumerDone => exact fun done => absurd done notDone
  case lastLook => exact fun look => absurd look notLooking
  case drained => exact fun left => absurd left notLeft

theorem push (ok : Ok pipe) (inside : pipe.receiver.hasLeft = false) (frames : List (Option T)) :
    Ok (pipe.push frames) := by
  refine ok.receiverMoves inside (ok.handoff.send pipe.gRunning).1 ?_
  intro stopped
  apply Sending.ready_of_none
  by_contra some
  rw [if_pos (Option.isSome_iff_ne_none.mpr some)] at stopped
  nomatch stopped

theorem stepReceiver (ok : Ok pipe) (setup : Setup) (arrived : List (Option T)) :
    Ok (pipe.stepReceiver setup arrived) := by
  -- Outside of a call the receiver moves on with the queue as it is.
  have onward {current : Receiver T} (here : pipe.receiver = current)
      (inside : current.hasLeft = false) (idle : current.pushing = false)
      (receiver : Receiver T) (emptyChecks : Nat) : Ok { pipe with receiver, emptyChecks } := by
    subst here
    exact ok.receiverMoves inside ok.handoff fun _ => ok.receiverIdle idle
  unfold Pipeline.stepReceiver
  split
  case h_1 here => exact onward here rfl rfl _ _
  case h_2 here => split <;> exact onward here rfl rfl _ _
  case h_3 here => split <;> exact onward here rfl rfl _ _
  case h_4 here => exact onward here rfl rfl _ _
  case h_5 here => exact onward here rfl rfl _ _
  case h_6 packet frames here =>
    have idle := ok.handoff.idle (ok.receiverIdle (by rw [here]; rfl))
    exact ok.receiverMoves (by rw [here]; rfl) (ok.handoff.startSend idle packet) nofun
  case h_7 here => exact ok.push (by rw [here]; rfl) _
  case h_8 here =>
    exact
      { ok with
        receiverIdle := fun _ => ok.receiverIdle (by rw [here]; rfl)
        consumerDone := fun _ => rfl
        lastLook := fun _ => rfl
        drained := fun left => ⟨rfl, (ok.drained left).2⟩ }
  case h_9 => exact ok

theorem works (ok : Ok pipe) {worker : Worker} {gRunning : Bool} (notLooking : worker ≠ .checkEmpty)
    (inLoop : worker.leftDrained = false) :
    Ok { pipe with handoff := pipe.work, worker, gRunning } := by
  obtain ⟨handoff, sending, -, -⟩ := ok.handoff.work_cases packetsPerBatch fun _ => ()
  constructor
  case handoff => exact handoff
  case receiverIdle => exact fun stopped => sending.trans (ok.receiverIdle stopped)
  case consumerDone => exact ok.consumerDone
  case lastLook => exact fun look => absurd look notLooking
  case drained => exact fun left => absurd left (by rw [inLoop]; nofun)

theorem callPopBatch (ok : Ok pipe) : Ok pipe.callPopBatch := ok.works nofun rfl

theorem popReturns_inLoop (handoff : Handoff T Unit) :
    popReturns handoff ≠ .checkEmpty ∧ (popReturns handoff).leftDrained = false := by
  unfold popReturns
  split
  next => split <;> exact ⟨nofun, rfl⟩
  next => exact ⟨nofun, rfl⟩

theorem processed_inLoop (handoff : Handoff T Unit) :
    processed handoff ≠ .checkEmpty ∧ (processed handoff).leftDrained = false := by
  unfold processed
  split <;> exact ⟨nofun, rfl⟩

theorem stepWorker (ok : Ok pipe) (setup : Setup) (completes : Bool) :
    Ok (pipe.stepWorker setup completes) := by
  have onward (worker : Worker) (gRunning : Bool)
      (lastLook : worker = .checkEmpty → pipe.receiver.hasLeft = true)
      (drained : worker.leftDrained = true → pipe.receiver.hasLeft = true ∧
        pipe.queue.returned = pipe.queue.accepted) : Ok { pipe with worker, gRunning } :=
    ⟨ok.handoff, ok.receiverIdle, ok.consumerDone, lastLook, drained⟩
  have processed := processed_inLoop pipe.work
  unfold Pipeline.stepWorker
  split
  case h_1 here =>
    split
    next => exact ok.callPopBatch
    next => exact onward _ _ nofun nofun
  case h_2 here =>
    split
    next => exact onward _ _ nofun nofun
    next => exact ok.callPopBatch
  case h_3 here =>
    obtain ⟨notLooking, inLoop⟩ := popReturns_inLoop pipe.work
    exact ok.works notLooking inLoop
  case h_4 here =>
    refine onward _ _ ?_ ?_
    next =>
      intro look
      split at look
      next done => exact ok.consumerDone done
      next => nomatch look
    next =>
      intro left
      split at left <;> nomatch left
  case h_5 here =>
    refine onward _ _ ?_ ?_
    next =>
      intro look
      split at look <;> nomatch look
    next =>
      intro left
      split at left
      next empty => exact ⟨ok.lastLook here, ok.handoff.queue.returned_eq_of_empty empty⟩
      next => nomatch left
  case h_6 here =>
    split
    next =>
      cases completes with
      | false => exact ok.works processed.1 processed.2
      | true => exact ok.works nofun rfl
    next => exact ok.works processed.1 processed.2
  case h_7 exit here =>
    have kept : (Worker.returned exit).leftDrained = true → pipe.receiver.hasLeft = true ∧
        pipe.queue.returned = pipe.queue.accepted := by
      intro left
      apply ok.drained
      rw [here]
      cases exit with
      | drained => rfl
      | _ => nomatch left
    split <;> exact onward _ _ nofun kept
  case h_8 => exact ok

theorem step (ok : Ok pipe) (setup : Setup) {thread : Thread T}
    (inOrder : pipe.AnnouncesInOrder thread) : Ok (pipe.step setup thread) := by
  cases thread with
  | launcher => exact ok.stepLauncher inOrder
  | producer => exact ok.stepProducer
  | receiver arrived => exact ok.stepReceiver setup arrived
  | worker completes => exact ok.stepWorker setup completes

end Ok

def OrderlyRun (setup : Setup) (pipe : Pipeline T) (schedule : List (Thread T)) : Prop :=
  Run.Guarded (step setup) AnnouncesInOrder pipe schedule

instance (pipe : Pipeline T) (thread : Thread T) : Decidable (pipe.AnnouncesInOrder thread) :=
  match thread with
  | .launcher => inferInstanceAs (Decidable (_ → _))
  | .producer => inferInstanceAs (Decidable True)
  | .receiver _ => inferInstanceAs (Decidable True)
  | .worker _ => inferInstanceAs (Decidable True)

instance (setup : Setup) (pipe : Pipeline T) (schedule : List (Thread T)) :
    Decidable (OrderlyRun setup pipe schedule) :=
  inferInstanceAs (Decidable (Run.Guarded (step setup) AnnouncesInOrder pipe schedule))

theorem orderly_pipeline_drains (setup : Setup) (cells : Nat → T) (messages : Nat)
    (schedule : List (Thread T)) (orderly : OrderlyRun setup (start cells messages) schedule) :
    ∀ done, done <+: schedule → ((start cells messages).run setup done).Drains := by
  rintro done ⟨later, rfl⟩
  have ok : Ok ((start cells messages).run setup done) :=
    Run.Guarded.invariant (fun _ _ ok inOrder => ok.step setup inOrder) (Ok.start cells messages)
      orderly
  exact ok.drained

theorem orderly_pipeline_drains_one_packet :
    let schedule : List (Thread Nat) :=
      List.replicate 3 .producer ++ List.replicate 7 (.receiver [some 7]) ++
        List.replicate 300 (.receiver []) ++ List.replicate 2 .launcher ++
        List.replicate 11 (.worker false)
    let pipe := (start (fun _ => 0) 1).run ⟨.packetMmap, .matchingWorker⟩ schedule
    pipe.worker = .left .drained ∧ pipe.queue.accepted = [7] ∧ pipe.Drains := by
  intro schedule pipe
  refine ⟨by decide +kernel, by decide +kernel, ?_⟩
  exact orderly_pipeline_drains ⟨.packetMmap, .matchingWorker⟩ (fun _ => 0) 1 schedule
    (by decide +kernel) schedule List.prefix_rfl

theorem worker_leaves_before_receiver :
    let schedule : List (Thread Nat) :=
      List.replicate 3 .producer ++ List.replicate 2 .launcher ++ List.replicate 5 (.worker false) ++
        List.replicate 6 (.receiver [some 7])
    let matching := (start (fun _ => 0) 1).run ⟨.packetMmap, .matchingWorker⟩ schedule
    let orderBook := (start (fun _ => 0) 1).run ⟨.afXdp, .hftOrderBookEngine⟩ schedule
    (matching.gRunning = true ∧ matching.queue.accepted = [7] ∧ ¬ matching.Drains) ∧
      orderBook.gRunning = true ∧ orderBook.queue.accepted = [7] ∧ ¬ orderBook.Drains := by
  intro schedule matching orderBook
  refine ⟨⟨by decide, by decide, ?_⟩, by decide, by decide, ?_⟩
  all_goals
    intro drains
    have left := (drains (by decide)).1
    exact absurd left (by decide)

end Pipeline

end HftFixEngine.Engine
