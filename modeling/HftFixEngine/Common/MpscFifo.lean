import HftFixEngine.Common.MpscQueue

set_option autoImplicit false

namespace HftFixEngine.Common

namespace MpscQueue

variable {P T : Type} [DecidableEq P] {exec : MpscQueue P T} {producer : P}

def inside (exec : MpscQueue P T) : Option P → Bool
  | none => exec.consumer.inside
  | some producer => (exec.producers producer).inside

namespace Consumer

@[simp]
theorem notified_inside (consumer : Consumer T) : consumer.notified.inside = consumer.inside := by
  cases consumer <;> rfl

@[simp]
theorem timeout_inside (consumer : Consumer T) : consumer.timeout.inside = consumer.inside := by
  cases consumer with
  | asleep call => cases call <;> rfl
  | awake call => cases call <;> rfl
  | _ => rfl

end Consumer

section Mutex

variable (mutex : Monitor.Excludes exec.owner exec.inside)

include mutex

theorem mutex_setProducer {phase : Producer T}
    (same : phase.inside = (exec.producers producer).inside) :
    Monitor.Excludes exec.owner (exec.setProducer producer phase).inside := by
  apply mutex.keep
  intro thread
  cases thread with
  | none => rfl
  | some other =>
    by_cases here : other = producer
    next => simp [inside, setProducer, here, same]
    next => simp [inside, setProducer, here]

theorem mutex_lockProducer {phase : Producer T} (enters : phase.inside = true) :
    Monitor.Excludes (exec.lockProducer producer phase).owner
      (exec.lockProducer producer phase).inside := by
  unfold lockProducer
  split
  next free =>
    refine mutex.enter free ?_ ?_
    next => simpa [inside, setProducer] using enters
    next =>
      intro other different
      cases other with
      | none => rfl
      | some other =>
        have different : other ≠ producer := fun same => different (congrArg some same)
        simp [inside, setProducer, different]
  next => exact mutex

theorem mutex_unlockProducer {phase : Producer T} (within : (exec.producers producer).inside = true)
    (leaves : phase.inside = false) :
    Monitor.Excludes none (exec.setProducer producer phase).inside := by
  refine mutex.leave (show exec.inside (some producer) = true from within) ?_ ?_
  next => simpa [inside, setProducer] using leaves
  next =>
    intro other different
    cases other with
    | none => rfl
    | some other =>
      have different : other ≠ producer := fun same => different (congrArg some same)
      simp [inside, setProducer, different]

omit [DecidableEq P] in
theorem mutex_setConsumer {consumer : Consumer T} (same : consumer.inside = exec.consumer.inside) :
    Monitor.Excludes exec.owner ({ exec with consumer } : MpscQueue P T).inside := by
  apply mutex.keep
  intro thread
  cases thread with
  | none => exact same
  | some other => rfl

omit [DecidableEq P] in
theorem mutex_lockConsumer {consumer : Consumer T} (enters : consumer.inside = true) :
    Monitor.Excludes (exec.lockConsumer consumer).owner (exec.lockConsumer consumer).inside := by
  unfold lockConsumer
  split
  next free =>
    refine mutex.enter free enters ?_
    intro other different
    cases other with
    | none => exact absurd rfl different
    | some other => rfl
  next => exact mutex

omit [DecidableEq P] in
theorem mutex_unlockConsumer {consumer : Consumer T} (within : exec.consumer.inside = true)
    (leaves : consumer.inside = false) :
    Monitor.Excludes none ({ exec with consumer } : MpscQueue P T).inside := by
  refine mutex.leave (show exec.inside none = true from within) leaves ?_
  intro other different
  cases other with
  | none => exact absurd rfl different
  | some other => rfl

omit [DecidableEq P] in
theorem mutex_notify : Monitor.Excludes exec.notify.owner exec.notify.inside :=
  mutex_setConsumer mutex exec.consumer.notified_inside

omit [DecidableEq P] in
theorem mutex_insert {item : T} {found : List T} :
    Monitor.Excludes (exec.insert producer item found).owner
      (exec.insert producer item found).inside :=
  mutex

theorem mutex_complete {item : T} :
    Monitor.Excludes (exec.complete producer item).owner (exec.complete producer item).inside :=
  mutex

theorem mutex_produce :
    Monitor.Excludes (exec.produce producer).owner (exec.produce producer).inside := by
  unfold produce
  cases here : exec.producers producer with
  | idle => exact mutex
  | push item => exact mutex_lockProducer mutex rfl
  | pushFind item => exact mutex_setProducer mutex (by rw [here]; rfl)
  | pushWrite item found =>
    exact mutex_setProducer (mutex_insert mutex) (congrArg Producer.inside here).symm
  | pushUnlock item => exact mutex_unlockProducer mutex (by rw [here]; rfl) rfl
  | pushNotify item =>
    exact mutex_setProducer (mutex_complete (mutex_notify mutex))
      (congrArg Producer.inside here).symm
  | tryPush item =>
    dsimp only
    split
    next => exact mutex_setProducer mutex (by rw [here]; rfl)
    next => exact mutex_lockProducer mutex rfl
  | tryPushFind item => exact mutex_setProducer mutex (by rw [here]; rfl)
  | tryPushWrite item found =>
    exact mutex_setProducer (mutex_insert mutex) (congrArg Producer.inside here).symm
  | tryPushNotify item =>
    exact mutex_setProducer (mutex_notify mutex) (congrArg Producer.inside here).symm
  | tryPushUnlock item =>
    exact mutex_unlockProducer (mutex_complete mutex) (congrArg Producer.inside here) rfl
  | notifyAll => exact mutex_lockProducer mutex rfl
  | notifyAllSignal =>
    exact mutex_setProducer (mutex_notify mutex) (congrArg Producer.inside here).symm
  | notifyAllUnlock => exact mutex_unlockProducer mutex (by rw [here]; rfl) rfl

omit [DecidableEq P] in
theorem mutex_consume : Monitor.Excludes exec.consume.owner exec.consume.inside := by
  unfold consume
  cases here : exec.consumer with
  | idle => exact mutex
  | lock call =>
    cases call with
    | tryPop => exact mutex_lockConsumer mutex rfl
    | _ => exact mutex_lockConsumer mutex rfl
  | check call =>
    dsimp only
    split
    next => exact mutex_setConsumer mutex (by rw [here]; rfl)
    next => exact mutex_unlockConsumer mutex (by rw [here]; rfl) rfl
  | asleep call => exact mutex
  | awake call => exact mutex_lockConsumer mutex rfl
  | expired => exact mutex_lockConsumer mutex rfl
  | take call =>
    dsimp only
    split
    next => exact mutex_setConsumer mutex (by rw [here]; rfl)
    next => exact mutex_setConsumer mutex (by rw [here]; rfl)
  | move call item rest => exact mutex_setConsumer mutex (by rw [here]; rfl)
  | unlock call result => exact mutex_unlockConsumer mutex (by rw [here]; rfl) rfl
  | look => exact mutex_lockConsumer mutex rfl
  | lookFind => exact mutex_setConsumer mutex (by rw [here]; rfl)
  | lookUnlock found => exact mutex_unlockConsumer mutex (by rw [here]; rfl) rfl

theorem mutex_enterProducer {call : Producer T} (outside : call.inside = false) :
    Monitor.Excludes (exec.enterProducer producer call).owner
      (exec.enterProducer producer call).inside := by
  unfold enterProducer
  split
  next idle => exact mutex_setProducer mutex (by rw [idle]; exact outside)
  next => exact mutex

omit [DecidableEq P] in
theorem mutex_enterConsumer {call : Consumer T} (outside : call.inside = false) :
    Monitor.Excludes (exec.enterConsumer call).owner (exec.enterConsumer call).inside := by
  unfold enterConsumer
  split
  next idle => exact mutex_setConsumer mutex (by rw [idle]; exact outside)
  next => exact mutex

theorem mutex_step (action : Action P T) :
    Monitor.Excludes (exec.step action).owner (exec.step action).inside := by
  cases action with
  | push producer item => exact mutex_enterProducer mutex rfl
  | tryPush producer item => exact mutex_enterProducer mutex rfl
  | notifyAll producer => exact mutex_enterProducer mutex rfl
  | produce producer => exact mutex_produce mutex
  | pop call => exact mutex_enterConsumer mutex rfl
  | look => exact mutex_enterConsumer mutex rfl
  | consume => exact mutex_consume mutex
  | timeout => exact mutex_setConsumer mutex exec.consumer.timeout_inside
  | spurious => exact mutex_notify mutex
  | setRunning running => exact mutex

end Mutex

def line (exec : MpscQueue P T) (producer : P) : List T :=
  (exec.accepted.filter fun entry => entry.1 = producer).map Prod.snd

structure Fifo (exec : MpscQueue P T) : Prop where
  producers : ∀ producer contents,
    (exec.producers producer).found = some contents → contents = exec.queue
  consumer : ∀ contents, exec.consumer.found = some contents → contents = exec.queue
  order : exec.accepted.map Prod.snd = exec.removed ++ exec.queue
  lines : ∀ producer,
    exec.line producer = exec.completed producer ++ (exec.producers producer).inserted

namespace Producer

theorem outside_found {phase : Producer T} (outside : phase.inside = false) : phase.found = none := by
  cases phase with
  | pushWrite _ _ => nomatch outside
  | tryPushWrite _ _ => nomatch outside
  | _ => rfl

end Producer

namespace Consumer

theorem outside_found {phase : Consumer T} (outside : phase.inside = false) : phase.found = none := by
  cases phase with
  | move _ _ _ => nomatch outside
  | unlock _ _ => nomatch outside
  | lookUnlock _ => nomatch outside
  | _ => rfl

@[simp]
theorem notified_found (consumer : Consumer T) : consumer.notified.found = consumer.found := by
  cases consumer <;> rfl

@[simp]
theorem timeout_found (consumer : Consumer T) : consumer.timeout.found = consumer.found := by
  cases consumer with
  | asleep call => cases call <;> rfl
  | awake call => cases call <;> rfl
  | _ => rfl

end Consumer

namespace Fifo

variable (fifo : Fifo exec)

include fifo

theorem setProducer {phase : Producer T} (owner : Option (Option P))
    (found : ∀ contents, phase.found = some contents → contents = exec.queue)
    (inserted : phase.inserted = (exec.producers producer).inserted) :
    Fifo { exec.setProducer producer phase with owner } where
  producers := by
    intro other contents
    by_cases here : other = producer
    next => simpa [MpscQueue.setProducer, here] using found contents
    next => simpa [MpscQueue.setProducer, here] using fifo.producers other contents
  consumer := fifo.consumer
  order := fifo.order
  lines := by
    intro other
    have line := fifo.lines other
    by_cases here : other = producer
    next => simpa [MpscQueue.line, MpscQueue.setProducer, here, inserted] using line
    next => simpa [MpscQueue.line, MpscQueue.setProducer, here] using line

theorem lockProducer {phase : Producer T} (found : phase.found = none)
    (inserted : phase.inserted = (exec.producers producer).inserted) :
    Fifo (exec.lockProducer producer phase) := by
  unfold MpscQueue.lockProducer
  split
  next =>
    refine fifo.setProducer _ ?_ inserted
    rw [found]
    exact nofun
  next => exact fifo

theorem setConsumer {consumer : Consumer T} (owner : Option (Option P))
    (found : ∀ contents, consumer.found = some contents → contents = exec.queue) :
    Fifo { exec with consumer, owner } where
  producers := fifo.producers
  consumer := found
  order := fifo.order
  lines := fifo.lines

theorem lockConsumer {consumer : Consumer T} (found : consumer.found = none) :
    Fifo (exec.lockConsumer consumer) := by
  unfold MpscQueue.lockConsumer
  split
  next =>
    refine fifo.setConsumer _ ?_
    rw [found]
    exact nofun
  next => exact fifo

theorem notify : Fifo exec.notify := by
  refine fifo.setConsumer _ ?_
  rw [Consumer.notified_found]
  exact fifo.consumer

theorem timeout : Fifo { exec with consumer := exec.consumer.timeout } := by
  refine fifo.setConsumer _ ?_
  rw [Consumer.timeout_found]
  exact fifo.consumer

-- Nobody else is inside, so what has been found is still what is there.
theorem insert (mutex : Monitor.Excludes exec.owner exec.inside) {item : T} {contents : List T}
    {phase : Producer T} (within : (exec.producers producer).inside = true)
    (was : (exec.producers producer).found = some contents)
    (before : (exec.producers producer).inserted = []) (found : phase.found = none)
    (inserted : phase.inserted = [item]) :
    Fifo ((exec.insert producer item contents).setProducer producer phase) := by
  have within : exec.inside (some producer) = true := within
  have current := fifo.producers producer contents was
  constructor
  case producers =>
    intro other
    by_cases here : other = producer
    next => simp [MpscQueue.setProducer, here, found]
    next =>
      have different : some other ≠ some producer := fun same => here (Option.some.inj same)
      have outside : (exec.producers other).inside = false := mutex.alone within different
      simp [MpscQueue.setProducer, here, MpscQueue.insert, Producer.outside_found outside]
  case consumer =>
    intro contents found
    have outside : exec.consumer.inside = false := mutex.alone within (Option.some_ne_none _).symm
    exact absurd ((Consumer.outside_found outside).symm.trans found) (Option.some_ne_none _).symm
  case order => simp [MpscQueue.setProducer, MpscQueue.insert, fifo.order, current]
  case lines =>
    intro other
    have line := fifo.lines other
    by_cases here : other = producer
    next =>
      subst here
      simp only [MpscQueue.line, before, List.append_nil] at line
      simp [MpscQueue.line, MpscQueue.setProducer, MpscQueue.insert, inserted, line]
    next =>
      have different : ¬ producer = other := fun same => here same.symm
      simpa [MpscQueue.line, MpscQueue.setProducer, MpscQueue.insert, here, different] using line

theorem complete {item : T} {phase : Producer T} (owner : Option (Option P))
    (found : phase.found = none) (was : (exec.producers producer).inserted = [item])
    (inserted : phase.inserted = []) :
    Fifo { (exec.complete producer item).setProducer producer phase with owner } where
  producers := by
    intro other contents
    by_cases here : other = producer
    next => simp [MpscQueue.setProducer, here, found]
    next =>
      simpa [MpscQueue.setProducer, MpscQueue.complete, here] using fifo.producers other contents
  consumer := fifo.consumer
  order := fifo.order
  lines := by
    intro other
    have line := fifo.lines other
    by_cases here : other = producer
    next =>
      subst here
      rw [was] at line
      simpa [MpscQueue.line, MpscQueue.setProducer, MpscQueue.complete, inserted] using line
    next => simpa [MpscQueue.line, MpscQueue.setProducer, MpscQueue.complete, here] using line

theorem produce (mutex : Monitor.Excludes exec.owner exec.inside) :
    Fifo (exec.produce producer) := by
  unfold MpscQueue.produce
  cases here : exec.producers producer with
  | idle => exact fifo
  | push item => exact fifo.lockProducer rfl (by rw [here]; rfl)
  | pushFind item =>
    refine fifo.setProducer _ ?_ (by rw [here]; rfl)
    exact fun contents same => (Option.some.inj same).symm
  | pushWrite item found =>
    exact fifo.insert mutex (by rw [here]; rfl) (by rw [here]; rfl) (by rw [here]; rfl) rfl rfl
  | pushUnlock item => exact fifo.setProducer none nofun (by rw [here]; rfl)
  | pushNotify item => exact fifo.notify.complete _ rfl (congrArg Producer.inserted here) rfl
  | tryPush item =>
    dsimp only
    split
    next => exact fifo.setProducer _ nofun (by rw [here]; rfl)
    next => exact fifo.lockProducer rfl (by rw [here]; rfl)
  | tryPushFind item =>
    refine fifo.setProducer _ ?_ (by rw [here]; rfl)
    exact fun contents same => (Option.some.inj same).symm
  | tryPushWrite item found =>
    exact fifo.insert mutex (by rw [here]; rfl) (by rw [here]; rfl) (by rw [here]; rfl) rfl rfl
  | tryPushNotify item =>
    exact fifo.notify.setProducer _ nofun (congrArg Producer.inserted here).symm
  | tryPushUnlock item => exact fifo.complete none rfl (congrArg Producer.inserted here) rfl
  | notifyAll => exact fifo.lockProducer rfl (by rw [here]; rfl)
  | notifyAllSignal =>
    exact fifo.notify.setProducer _ nofun (congrArg Producer.inserted here).symm
  | notifyAllUnlock => exact fifo.setProducer none nofun (by rw [here]; rfl)

theorem consume (mutex : Monitor.Excludes exec.owner exec.inside) : Fifo exec.consume := by
  unfold MpscQueue.consume
  cases here : exec.consumer with
  | idle => exact fifo
  | lock call =>
    cases call with
    | tryPop => exact fifo.lockConsumer rfl
    | _ => exact fifo.lockConsumer rfl
  | check call =>
    dsimp only
    split
    next => exact fifo.setConsumer _ nofun
    next => exact fifo.setConsumer none nofun
  | asleep call => exact fifo
  | awake call => exact fifo.lockConsumer rfl
  | expired => exact fifo.lockConsumer rfl
  | take call =>
    dsimp only
    split
    next nothing =>
      refine fifo.setConsumer _ ?_
      intro contents same
      rw [nothing, ← Option.some.inj same]
    next item rest items =>
      refine fifo.setConsumer _ ?_
      intro contents same
      rw [items, ← Option.some.inj same]
  | move call item rest =>
    have items := fifo.consumer (item :: rest) (by rw [here]; rfl)
    have within : exec.inside none = true := by
      simp [inside, here, Consumer.inside]
    constructor
    case producers =>
      intro producer contents found
      have outside : (exec.producers producer).inside = false :=
        mutex.alone within (Option.some_ne_none producer)
      rw [Producer.outside_found outside] at found
      nomatch found
    case consumer => exact nofun
    case order => simp [fifo.order, ← items]
    case lines => exact fifo.lines
  | unlock call result => exact fifo.setConsumer none nofun
  | look => exact fifo.lockConsumer rfl
  | lookFind =>
    refine fifo.setConsumer _ ?_
    exact fun contents same => (Option.some.inj same).symm
  | lookUnlock found => exact fifo.setConsumer none nofun

theorem enterProducer {call : Producer T} (found : call.found = none) (inserted : call.inserted = []) :
    Fifo (exec.enterProducer producer call) := by
  unfold MpscQueue.enterProducer
  split
  next idle =>
    refine fifo.setProducer _ ?_ ?_
    next =>
      rw [found]
      exact nofun
    next =>
      rw [idle]
      exact inserted
  next => exact fifo

theorem enterConsumer {call : Consumer T} (found : call.found = none) :
    Fifo (exec.enterConsumer call) := by
  unfold MpscQueue.enterConsumer
  split
  next idle =>
    refine fifo.setConsumer _ ?_
    rw [found]
    exact nofun
  next => exact fifo

theorem step (mutex : Monitor.Excludes exec.owner exec.inside) (action : Action P T) :
    Fifo (exec.step action) := by
  cases action with
  | push producer item => exact fifo.enterProducer rfl rfl
  | tryPush producer item => exact fifo.enterProducer rfl rfl
  | notifyAll producer => exact fifo.enterProducer rfl rfl
  | produce producer => exact fifo.produce mutex
  | pop call => exact fifo.enterConsumer rfl
  | look => exact fifo.enterConsumer rfl
  | consume => exact fifo.consume mutex
  | timeout => exact fifo.timeout
  | spurious => exact fifo.notify
  | setRunning running =>
    exact {
      producers := fifo.producers
      consumer := fifo.consumer
      order := fifo.order
      lines := fifo.lines }

end Fifo

structure Safe (exec : MpscQueue P T) : Prop where
  mutex : Monitor.Excludes exec.owner exec.inside
  fifo : Fifo exec

namespace Safe

theorem start (running : Bool) : Safe ({ running } : MpscQueue P T) where
  mutex := by
    rintro (_ | _)
    next => exact ⟨nofun, nofun⟩
    next => exact ⟨nofun, nofun⟩
  fifo := {
    producers := nofun
    consumer := nofun
    order := rfl
    lines := fun _ => rfl }

theorem step (safe : Safe exec) (action : Action P T) : Safe (exec.step action) where
  mutex := mutex_step safe.mutex action
  fifo := safe.fifo.step safe.mutex action

theorem run (safe : Safe exec) (actions : List (Action P T)) : Safe (exec.run actions) := by
  induction actions generalizing exec with
  | nil => exact safe
  | cons action actions ih => exact ih (safe.step action)

end Safe

theorem keeps_order (running : Bool) (actions : List (Action P T)) :
    let exec := ({ running } : MpscQueue P T).run actions
    (∀ first second, exec.inside first → exec.inside second → first = second) ∧
      exec.accepted.map Prod.snd = exec.removed ++ exec.queue ∧
      ∀ producer,
        exec.line producer = exec.completed producer ++ (exec.producers producer).inserted := by
  intro exec
  have safe : Safe exec := (Safe.start running).run actions
  refine ⟨?_, safe.fifo.order, safe.fifo.lines⟩
  intro first second firstInside secondInside
  exact safe.mutex.unique firstInside secondInside

end MpscQueue

end HftFixEngine.Common
