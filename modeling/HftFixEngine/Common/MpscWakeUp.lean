import HftFixEngine.Common.MpscFifo
import Mathlib.Logic.Function.Iterate

set_option autoImplicit false

namespace HftFixEngine.Common

namespace MpscQueue

variable {P T : Type} [DecidableEq P] {exec : MpscQueue P T} {producer : P}

namespace Producer

def due : Producer T → Bool
  | .push _ => true
  | .pushFind _ => true
  | .pushWrite _ _ => true
  | .pushUnlock _ => true
  | .pushNotify _ => true
  | .tryPushFind _ => true
  | .tryPushWrite _ _ => true
  | .tryPushNotify _ => true
  | .notifyAll => true
  | .notifyAllSignal => true
  | _ => false

end Producer

namespace Consumer

@[simp]
theorem notified_awake (consumer : Consumer T) : consumer.notified.sleeping = false := by
  cases consumer <;> rfl

theorem timeout_sleeping {consumer : Consumer T} (asleep : consumer.timeout.sleeping = true) :
    consumer.timeout = consumer := by
  cases consumer with
  | asleep call =>
    cases call with
    | popWithTimeout => nomatch asleep
    | _ => rfl
  | awake call =>
    cases call with
    | popWithTimeout => nomatch asleep
    | _ => rfl
  | _ => rfl

end Consumer

section Step

theorem setProducer_other {other : P} (phase : Producer T) (different : other ≠ producer) :
    (exec.setProducer producer phase).producers other = exec.producers other :=
  Function.update_of_ne different ..

@[simp]
theorem lockProducer_consumer (phase : Producer T) :
    (exec.lockProducer producer phase).consumer = exec.consumer := by
  unfold lockProducer
  split <;> rfl

@[simp]
theorem lockProducer_running (phase : Producer T) :
    (exec.lockProducer producer phase).running = exec.running := by
  unfold lockProducer
  split <;> rfl

omit [DecidableEq P] in
@[simp]
theorem lockConsumer_producers (phase : Consumer T) :
    (exec.lockConsumer phase).producers = exec.producers := by
  unfold lockConsumer
  split <;> rfl

omit [DecidableEq P] in
@[simp]
theorem lockConsumer_running (phase : Consumer T) :
    (exec.lockConsumer phase).running = exec.running := by
  unfold lockConsumer
  split <;> rfl

omit [DecidableEq P] in
theorem lockConsumer_awake {phase : Consumer T} (awake : phase.sleeping = false)
    (before : exec.consumer.sleeping = false) :
    (exec.lockConsumer phase).consumer.sleeping = false := by
  unfold lockConsumer
  split
  next => exact awake
  next => exact before

theorem produce_other {other : P} (different : other ≠ producer) :
    (exec.produce producer).producers other = exec.producers other := by
  unfold produce
  cases exec.producers producer with
  | idle => rfl
  | push item =>
    dsimp only [lockProducer]
    split
    next => exact setProducer_other _ different
    next => rfl
  | tryPush item =>
    dsimp only [lockProducer]
    split
    next => exact setProducer_other _ different
    next =>
      split
      next => exact setProducer_other _ different
      next => rfl
  | notifyAll =>
    dsimp only [lockProducer]
    split
    next => exact setProducer_other _ different
    next => rfl
  | _ => exact setProducer_other _ different

theorem produce_running : (exec.produce producer).running = exec.running := by
  unfold produce
  cases exec.producers producer with
  | push item => exact lockProducer_running _
  | tryPush item =>
    dsimp only
    split
    next => rfl
    next => exact lockProducer_running _
  | notifyAll => exact lockProducer_running _
  | _ => rfl

omit [DecidableEq P] in
theorem consume_producers : exec.consume.producers = exec.producers := by
  unfold consume
  cases exec.consumer with
  | lock call => cases call <;> exact lockConsumer_producers _
  | check call =>
    dsimp only
    split <;> rfl
  | awake call => exact lockConsumer_producers _
  | expired => exact lockConsumer_producers _
  | take call =>
    dsimp only
    split <;> rfl
  | look => exact lockConsumer_producers _
  | _ => rfl

omit [DecidableEq P] in
theorem consume_running : exec.consume.running = exec.running := by
  unfold consume
  cases exec.consumer with
  | lock call => cases call <;> exact lockConsumer_running _
  | check call =>
    dsimp only
    split <;> rfl
  | awake call => exact lockConsumer_running _
  | expired => exact lockConsumer_running _
  | take call =>
    dsimp only
    split <;> rfl
  | look => exact lockConsumer_running _
  | _ => rfl

-- A step of a producer that leaves the consumer asleep has not notified.
theorem produce_asleep (asleep : (exec.produce producer).consumer.sleeping = true) :
    (exec.produce producer).consumer = exec.consumer ∧
      ((exec.producers producer).due = true →
        ((exec.produce producer).producers producer).due = true) ∧
      ((exec.producers producer).notifying = true →
        ((exec.produce producer).producers producer).notifying = true) ∧
      ((exec.produce producer).queue = exec.queue ∨
        ((exec.produce producer).producers producer).notifying = true) := by
  unfold produce at asleep ⊢
  cases here : exec.producers producer with
  | idle => simp [here]
  | push item =>
    dsimp only [lockProducer]
    split
    next => simp [setProducer, Producer.due, Producer.notifying]
    next => simp [here, Producer.due, Producer.notifying]
  | tryPush item =>
    dsimp only [lockProducer]
    split
    next => simp [setProducer, Producer.due, Producer.notifying]
    next =>
      split
      next => simp [setProducer, Producer.due, Producer.notifying]
      next => simp [here, Producer.due, Producer.notifying]
  | notifyAll =>
    dsimp only [lockProducer]
    split
    next => simp [setProducer, Producer.due, Producer.notifying]
    next => simp [here, Producer.due, Producer.notifying]
  | pushNotify item => simp [here, setProducer, complete, notify] at asleep
  | tryPushNotify item => simp [here, setProducer, notify] at asleep
  | notifyAllSignal => simp [here, setProducer, notify] at asleep
  | _ => simp [setProducer, insert, complete, Producer.due, Producer.notifying]

omit [DecidableEq P] in
theorem consume_asleep (asleep : exec.consume.consumer.sleeping = true) :
    exec.consume.queue = exec.queue ∧
      (exec.consumer.sleeping = true ∨ (exec.queue = [] ∧ exec.running = true)) := by
  unfold consume at asleep ⊢
  cases here : exec.consumer with
  | idle => simp [here, Consumer.sleeping] at asleep
  | asleep call => exact ⟨rfl, .inl rfl⟩
  | check call =>
    dsimp only
    split
    next work => simp [here, work, Consumer.sleeping] at asleep
    next nothing => exact ⟨rfl, .inr (by simpa using nothing)⟩
  | lock call =>
    rw [here] at asleep
    cases call <;>
    next =>
      rw [lockConsumer_awake rfl (by rw [here]; rfl)] at asleep
      nomatch asleep
  | awake call =>
    rw [here, lockConsumer_awake rfl (by rw [here]; rfl)] at asleep
    nomatch asleep
  | expired =>
    rw [here, lockConsumer_awake rfl (by rw [here]; rfl)] at asleep
    nomatch asleep
  | look =>
    rw [here, lockConsumer_awake rfl (by rw [here]; rfl)] at asleep
    nomatch asleep
  | take call =>
    rw [here] at asleep
    dsimp only at asleep
    split at asleep <;> nomatch asleep
  | _ => simp [here, Consumer.sleeping] at asleep

theorem enterProducer_kept {call : Producer T} {other : P} {standing : Producer T → Bool}
    (idle : standing .idle = false) (was : standing (exec.producers other) = true) :
    standing ((exec.enterProducer producer call).producers other) = true := by
  unfold enterProducer
  split
  next here =>
    have different : other ≠ producer := by
      rintro rfl
      rw [here, idle] at was
      nomatch was
    rwa [setProducer_other _ different]
  next => exact was

@[simp]
theorem enterProducer_consumer (call : Producer T) :
    (exec.enterProducer producer call).consumer = exec.consumer := by
  unfold enterProducer
  split <;> rfl

@[simp]
theorem enterProducer_queue (call : Producer T) :
    (exec.enterProducer producer call).queue = exec.queue := by
  unfold enterProducer
  split <;> rfl

@[simp]
theorem enterProducer_running (call : Producer T) :
    (exec.enterProducer producer call).running = exec.running := by
  unfold enterProducer
  split <;> rfl

omit [DecidableEq P] in
@[simp]
theorem enterConsumer_producers (call : Consumer T) :
    (exec.enterConsumer call).producers = exec.producers := by
  unfold enterConsumer
  split <;> rfl

omit [DecidableEq P] in
@[simp]
theorem enterConsumer_queue (call : Consumer T) : (exec.enterConsumer call).queue = exec.queue := by
  unfold enterConsumer
  split <;> rfl

omit [DecidableEq P] in
@[simp]
theorem enterConsumer_running (call : Consumer T) :
    (exec.enterConsumer call).running = exec.running := by
  unfold enterConsumer
  split <;> rfl

omit [DecidableEq P] in
theorem enterConsumer_asleep {call : Consumer T} (awake : call.sleeping = false)
    (asleep : (exec.enterConsumer call).consumer.sleeping = true) :
    exec.consumer.sleeping = true := by
  unfold enterConsumer at asleep
  split at asleep
  next =>
    rw [show call.sleeping = true from asleep] at awake
    nomatch awake
  next => exact asleep

structure Slept (before now : MpscQueue P T) : Prop where
  since : before.consumer.sleeping = true ∨ (before.queue = [] ∧ before.running = true)
  arrived : now.queue = before.queue ∨ ∃ producer, (now.producers producer).notifying = true
  notifying : ∀ producer,
    (before.producers producer).notifying = true → (now.producers producer).notifying = true
  due : ∀ producer,
    (before.producers producer).due = true → (now.producers producer).due = true

theorem Slept.enterProducer {call : Producer T} (asleep : exec.consumer.sleeping = true) :
    Slept exec (exec.enterProducer producer call) where
  since := .inl asleep
  arrived := .inl (by simp)
  notifying := fun _ => enterProducer_kept rfl
  due := fun _ => enterProducer_kept rfl

theorem step_asleep {action : Action P T} (asleep : (exec.step action).consumer.sleeping = true) :
    Slept exec (exec.step action) := by
  cases action with
  | push producer item => exact .enterProducer (by simpa [step] using asleep)
  | tryPush producer item => exact .enterProducer (by simpa [step] using asleep)
  | notifyAll producer => exact .enterProducer (by simpa [step] using asleep)
  | produce producer =>
    obtain ⟨same, due, notifying, arrived⟩ := produce_asleep asleep
    have before : exec.consumer.sleeping = true := by
      rw [← same]
      exact asleep
    refine ⟨.inl before, arrived.imp_right fun here => ⟨producer, here⟩, ?_, ?_⟩
    next =>
      intro other was
      by_cases here : other = producer
      next => exact here ▸ notifying (here ▸ was)
      next => exact (produce_other here).symm ▸ was
    next =>
      intro other was
      by_cases here : other = producer
      next => exact here ▸ due (here ▸ was)
      next => exact (produce_other here).symm ▸ was
  | pop call =>
    have before := enterConsumer_asleep rfl asleep
    exact ⟨.inl before, .inl (by simp [step]), by simp [step], by simp [step]⟩
  | look =>
    have before := enterConsumer_asleep rfl asleep
    exact ⟨.inl before, .inl (by simp [step]), by simp [step], by simp [step]⟩
  | consume =>
    obtain ⟨same, since⟩ := consume_asleep asleep
    exact ⟨since, .inl same, by simp [step, consume_producers], by simp [step, consume_producers]⟩
  | timeout =>
    have before : exec.consumer.sleeping = true := by
      rw [← Consumer.timeout_sleeping asleep]
      exact asleep
    exact ⟨.inl before, .inl rfl, fun _ => id, fun _ => id⟩
  | spurious => simp [step, notify] at asleep
  | setRunning running => exact ⟨.inl asleep, .inl rfl, fun _ => id, fun _ => id⟩

end Step

def Heard (exec : MpscQueue P T) : Prop :=
  exec.consumer.sleeping = true → exec.queue ≠ [] →
    ∃ producer, (exec.producers producer).notifying = true

theorem Heard.step (heard : Heard exec) (action : Action P T) : Heard (exec.step action) := by
  intro asleep items
  have slept := step_asleep asleep
  rcases slept.arrived with same | notifying
  next =>
    rw [same] at items
    rcases slept.since with before | ⟨nothing, _⟩
    next =>
      obtain ⟨producer, notifying⟩ := heard before items
      exact ⟨producer, slept.notifying producer notifying⟩
    next => exact absurd nothing items
  next => exact notifying

theorem Heard.run (heard : Heard exec) (actions : List (Action P T)) : Heard (exec.run actions) := by
  induction actions generalizing exec with
  | nil => exact heard
  | cons action actions ih => exact ih (heard.step action)

section Progress

def Quiet (exec : MpscQueue P T) : Prop := ∀ producer, exec.producers producer = .idle

theorem Quiet.free (quiet : Quiet exec) (safe : Safe exec) (outside : exec.consumer.inside = false) :
    exec.owner = none := by
  cases owner : exec.owner with
  | none => rfl
  | some thread =>
    have within := (safe.mutex thread).mp owner
    cases thread with
    | none =>
      rw [show exec.inside none = exec.consumer.inside from rfl, outside] at within
      nomatch within
    | some producer =>
      rw [show exec.inside (some producer) = (exec.producers producer).inside from rfl,
        quiet producer] at within
      nomatch within

def Returns (bound : Nat) (good : MpscQueue P T → Prop) (exec : MpscQueue P T) : Prop :=
  ∃ steps, steps ≤ bound ∧ (consume^[steps] exec).consumer = .idle ∧ good (consume^[steps] exec)

variable {bound : Nat} {good : MpscQueue P T → Prop}

omit [DecidableEq P] in
theorem Returns.next (returns : Returns bound good exec.consume) : Returns (bound + 1) good exec := by
  obtain ⟨steps, within, idle, holds⟩ := returns
  exact ⟨steps + 1, Nat.succ_le_succ within, idle, holds⟩

omit [DecidableEq P] in
theorem returns_unlock {call : Pop} {result : Option T} (here : exec.consumer = .unlock call result)
    (holds : good { exec with consumer := .idle, owner := none }) :
    Returns (bound + 1) good exec := by
  refine ⟨1, Nat.le_add_left 1 bound, ?_⟩
  rw [show consume^[1] exec = { exec with consumer := .idle, owner := none } by
    simp [consume, here]]
  exact ⟨rfl, holds⟩

def Gives (before : MpscQueue P T) (item : T) (rest : List T) (later : MpscQueue P T) : Prop :=
  later.removed = before.removed ++ [item] ∧ later.queue = rest

variable {before : MpscQueue P T} {item : T} {rest : List T}

omit [DecidableEq P] in
theorem returns_take {call : Pop} (removed : exec.removed = before.removed)
    (items : exec.queue = item :: rest) (here : exec.consumer = .take call) :
    Returns (bound + 3) (Gives before item rest) exec := by
  apply Returns.next
  simp only [consume, here, items]
  apply Returns.next
  simp only [consume]
  refine returns_unlock rfl ⟨?_, rfl⟩
  rw [removed]

omit [DecidableEq P] in
theorem returns_check {call : Pop} (removed : exec.removed = before.removed)
    (items : exec.queue = item :: rest) (here : exec.consumer = .check call) :
    Returns (bound + 4) (Gives before item rest) exec := by
  apply Returns.next
  simp only [consume, here, items, List.isEmpty_cons, Bool.not_false, Bool.true_or, if_true]
  exact returns_take removed rfl rfl

theorem Quiet.returns (quiet : Quiet exec) (safe : Safe exec) (heard : Heard exec)
    (waiting : exec.consumer.waiting = true) (items : exec.queue = item :: rest) :
    Returns 5 (Gives exec item rest) exec := by
  cases here : exec.consumer with
  | lock call =>
    have free := quiet.free safe (by rw [here]; rfl)
    apply Returns.next
    cases call with
    | tryPop =>
      simp only [consume, here, lockConsumer, free]
      exact returns_take rfl items rfl
    | _ =>
      simp only [consume, here, lockConsumer, free]
      exact returns_check rfl items rfl
  | check call => exact returns_check rfl items here
  | asleep call =>
    obtain ⟨producer, notifying⟩ := heard (by rw [here]; rfl) (by rw [items]; exact nofun)
    rw [quiet producer] at notifying
    nomatch notifying
  | awake call =>
    have free := quiet.free safe (by rw [here]; rfl)
    apply Returns.next
    simp only [consume, here, lockConsumer, free]
    exact returns_check rfl items rfl
  | expired =>
    have free := quiet.free safe (by rw [here]; rfl)
    apply Returns.next
    simp only [consume, here, lockConsumer, free]
    exact returns_take rfl items rfl
  | take call => exact returns_take rfl items here
  | _ => simp [here, Consumer.waiting] at waiting

end Progress

theorem wakes_for_item (running : Bool) (actions : List (Action P T)) :
    let exec := ({ running } : MpscQueue P T).run actions
    (exec.consumer.sleeping → exec.queue ≠ [] →
      ∃ producer, (exec.producers producer).notifying) ∧
    ∀ item rest, exec.Quiet → exec.consumer.waiting → exec.queue = item :: rest →
      exec.Returns 5 (exec.Gives item rest) := by
  intro exec
  have safe : Safe exec := (Safe.start running).run actions
  have start : Heard ({ running } : MpscQueue P T) := nofun
  have heard : Heard exec := start.run actions
  refine ⟨heard, ?_⟩
  intro item rest quiet waiting items
  exact quiet.returns safe heard waiting items

section Flag

variable {bound : Nat}

theorem step_running {action : Action P T} (lowered : exec.running = false)
    (kept : action ≠ .setRunning true) : (exec.step action).running = false := by
  cases action with
  | produce producer => rwa [step, produce_running]
  | consume => rwa [step, consume_running]
  | setRunning running =>
    cases running with
    | false => rfl
    | true => exact absurd rfl kept
  | _ => simpa [step, notify] using lowered

-- With the flag down nobody falls asleep, and who sleeps has not been notified by `producer`.
theorem stays_due (lowered : exec.running = false)
    (due : exec.consumer.sleeping = true → (exec.producers producer).due = true)
    {actions : List (Action P T)} (kept : Action.setRunning true ∉ actions) :
    let later := exec.run actions
    later.running = false ∧
      (later.consumer.sleeping = true → (later.producers producer).due = true) := by
  induction actions generalizing exec with
  | nil => exact ⟨lowered, due⟩
  | cons action actions ih =>
    have here : action ≠ .setRunning true := fun same => kept (same ▸ List.mem_cons_self)
    refine ih (step_running lowered here) ?_ fun later => kept (List.mem_cons_of_mem action later)
    intro asleep
    have slept := step_asleep asleep
    rcases slept.since with before | ⟨_, running⟩
    next => exact slept.due producer (due before)
    next =>
      rw [lowered] at running
      nomatch running

omit [DecidableEq P] in
theorem returns_nothing {call : Pop} (nothing : exec.queue = []) (here : exec.consumer = .take call) :
    Returns (bound + 2) (fun _ => True) exec := by
  apply Returns.next
  simp only [consume, here, nothing]
  exact returns_unlock rfl trivial

omit [DecidableEq P] in
theorem returns_lowered {call : Pop} (nothing : exec.queue = []) (lowered : exec.running = false)
    (here : exec.consumer = .check call) :
    Returns (bound + 3) (fun _ => True) exec := by
  apply Returns.next
  simp only [consume, here, nothing, lowered, List.isEmpty_nil, Bool.not_true, Bool.not_false,
    Bool.or_true, if_true]
  exact returns_nothing rfl rfl

theorem Quiet.returns_lowered (quiet : Quiet exec) (safe : Safe exec) (lowered : exec.running = false)
    (awake : exec.consumer.sleeping = false) (waiting : exec.consumer.waiting = true) :
    Returns 5 (fun _ => True) exec := by
  cases items : exec.queue with
  | cons item rest =>
    have heard : Heard exec := by
      intro asleep
      rw [awake] at asleep
      nomatch asleep
    obtain ⟨steps, within, idle, _⟩ := quiet.returns safe heard waiting items
    exact ⟨steps, within, idle, trivial⟩
  | nil =>
    cases here : exec.consumer with
    | lock call =>
      have free := quiet.free safe (by rw [here]; rfl)
      apply Returns.next
      cases call with
      | tryPop =>
        simp only [consume, here, lockConsumer, free]
        exact returns_nothing items rfl
      | _ =>
        simp only [consume, here, lockConsumer, free]
        exact MpscQueue.returns_lowered items lowered rfl
    | check call =>
      exact MpscQueue.returns_lowered items lowered here
    | asleep call => simp [here, Consumer.sleeping] at awake
    | awake call =>
      have free := quiet.free safe (by rw [here]; rfl)
      apply Returns.next
      simp only [consume, here, lockConsumer, free]
      exact MpscQueue.returns_lowered items lowered rfl
    | expired =>
      have free := quiet.free safe (by rw [here]; rfl)
      apply Returns.next
      simp only [consume, here, lockConsumer, free]
      exact returns_nothing items rfl
    | take call => exact returns_nothing items here
    | _ => simp [here, Consumer.waiting] at waiting

theorem stays_awake (lowered : exec.running = false) (awake : exec.consumer.sleeping = false)
    {actions : List (Action P T)} (kept : Action.setRunning true ∉ actions) :
    let later := exec.run actions
    later.running = false ∧ later.consumer.sleeping = false := by
  induction actions generalizing exec with
  | nil => exact ⟨lowered, awake⟩
  | cons action actions ih =>
    have here : action ≠ .setRunning true := fun same => kept (same ▸ List.mem_cons_self)
    refine ih (step_running lowered here) ?_ fun later => kept (List.mem_cons_of_mem action later)
    rw [← Bool.not_eq_true]
    intro asleep
    rcases (step_asleep asleep).since with before | ⟨_, running⟩
    next => simp [awake] at before
    next => simp [lowered] at running

theorem notifyAll_ends_wait (running : Bool) (earlier during actions : List (Action P T)) (producer : P)
    (lowered : (({ running } : MpscQueue P T).run earlier).running = false)
    (outside : (({ running } : MpscQueue P T).run earlier).producers producer = .idle)
    (kept : Action.setRunning true ∉ during ++ actions)
    (back : ((({ running } : MpscQueue P T).run earlier).run
      (.notifyAll producer :: during)).producers producer = .idle) :
    let later := (({ running } : MpscQueue P T).run earlier).run
      (.notifyAll producer :: (during ++ actions))
    later.consumer.sleeping = false ∧
      (later.Quiet → later.consumer.waiting → later.Returns 5 fun _ => True) := by
  have safe : Safe (({ running } : MpscQueue P T).run earlier) := (Safe.start running).run earlier
  generalize ({ running } : MpscQueue P T).run earlier = exec at lowered outside back safe ⊢
  intro later
  rw [List.mem_append, not_or] at kept
  have begun : ((exec.step (.notifyAll producer)).producers producer).due = true := by
    simp [step, enterProducer, outside, setProducer, Producer.due]
  have down : (exec.step (.notifyAll producer)).running = false := step_running lowered (by simp)
  obtain ⟨stillDown, due⟩ := stays_due down (fun _ => begun) kept.1
  have awake : (exec.run (.notifyAll producer :: during)).consumer.sleeping = false := by
    rw [← Bool.not_eq_true]
    intro asleep
    have last : ((exec.run (.notifyAll producer :: during)).producers producer).due = true := due asleep
    simp [back, Producer.due] at last
  have whole : later = (exec.run (.notifyAll producer :: during)).run actions := by
    simp [later, run]
  obtain ⟨finallyDown, never⟩ := stays_awake stillDown awake kept.2
  rw [whole]
  refine ⟨never, ?_⟩
  intro quiet waiting
  exact quiet.returns_lowered ((safe.run _).run actions) finallyDown never waiting

theorem notifyAll_ends_wait_asleep :
    let exec : MpscQueue Unit Nat :=
      ({ running := true } : MpscQueue Unit Nat).run
        ([.pop .pop, .consume, .consume, .setRunning false] ++
          .notifyAll () :: ([.produce (), .produce (), .produce ()] ++
            [.consume, .consume, .consume, .consume, .pop .pop, .notifyAll ()]))
    exec.consumer.waiting = true ∧ exec.consumer.sleeping = false :=
  ⟨rfl, (notifyAll_ends_wait true [.pop .pop, .consume, .consume, .setRunning false]
    [.produce (), .produce (), .produce ()]
    [.consume, .consume, .consume, .consume, .pop .pop, .notifyAll ()] () rfl rfl (by simp) rfl).1⟩

end Flag

section Patience

structure Patient (exec : MpscQueue P T) : Prop where
  running : exec.running = true
  take : exec.consumer = .take .pop → exec.queue ≠ []
  unlock : exec.consumer ≠ .unlock .pop none

theorem produce_queue (exec : MpscQueue P T) (producer : P) :
    (exec.produce producer).queue = exec.queue ∨ (exec.produce producer).queue ≠ [] := by
  unfold produce
  cases exec.producers producer with
  | push item =>
    dsimp only [lockProducer]
    split <;> exact .inl rfl
  | tryPush item =>
    dsimp only [lockProducer]
    split
    next => exact .inl rfl
    next => split <;> exact .inl rfl
  | notifyAll =>
    dsimp only [lockProducer]
    split <;> exact .inl rfl
  | pushWrite item found => exact .inr (by simp [setProducer, insert])
  | tryPushWrite item found => exact .inr (by simp [setProducer, insert])
  | _ => exact .inl rfl

theorem produce_consumer (exec : MpscQueue P T) (producer : P) :
    (exec.produce producer).consumer = exec.consumer ∨
      (exec.produce producer).consumer = exec.consumer.notified := by
  unfold produce
  cases exec.producers producer with
  | push item => exact .inl (lockProducer_consumer _)
  | tryPush item =>
    dsimp only
    split
    next => exact .inl rfl
    next => exact .inl (lockProducer_consumer _)
  | notifyAll => exact .inl (lockProducer_consumer _)
  | pushNotify item => exact .inr rfl
  | tryPushNotify item => exact .inr rfl
  | notifyAllSignal => exact .inr rfl
  | _ => exact .inl rfl

namespace Consumer

theorem notified_take {consumer : Consumer T} {call : Pop} :
    consumer.notified = .take call ↔ consumer = .take call := by
  cases consumer <;> simp [notified]

theorem notified_unlock {consumer : Consumer T} {call : Pop} {result : Option T} :
    consumer.notified = .unlock call result ↔ consumer = .unlock call result := by
  cases consumer <;> simp [notified]

theorem timeout_take {consumer : Consumer T} {call : Pop} :
    consumer.timeout = .take call ↔ consumer = .take call := by
  cases consumer with
  | asleep call => cases call <;> simp [timeout]
  | awake call => cases call <;> simp [timeout]
  | _ => simp [timeout]

theorem timeout_unlock {consumer : Consumer T} {call : Pop} {result : Option T} :
    consumer.timeout = .unlock call result ↔ consumer = .unlock call result := by
  cases consumer with
  | asleep call => cases call <;> simp [timeout]
  | awake call => cases call <;> simp [timeout]
  | _ => simp [timeout]

end Consumer

namespace Patient

omit [DecidableEq P] in
theorem notify (patient : Patient exec) : Patient exec.notify where
  running := patient.running
  take := fun here => patient.take (Consumer.notified_take.mp here)
  unlock := fun here => patient.unlock (Consumer.notified_unlock.mp here)

theorem produce (patient : Patient exec) : Patient (exec.produce producer) where
  running := by
    rw [produce_running]
    exact patient.running
  take := by
    intro here
    have before : exec.consumer = .take .pop := by
      rcases produce_consumer exec producer with same | notified
      next => rwa [same] at here
      next => exact Consumer.notified_take.mp (notified.symm.trans here)
    rcases produce_queue exec producer with same | items
    next =>
      rw [same]
      exact patient.take before
    next => exact items
  unlock := by
    intro here
    apply patient.unlock
    rcases produce_consumer exec producer with same | notified
    next => rwa [same] at here
    next => exact Consumer.notified_unlock.mp (notified.symm.trans here)

omit [DecidableEq P] in
theorem lockConsumer {consumer : Consumer T} (patient : Patient exec)
    (take : consumer ≠ .take .pop) (unlock : consumer ≠ .unlock .pop none) :
    Patient (exec.lockConsumer consumer) := by
  unfold MpscQueue.lockConsumer
  split
  next => exact ⟨patient.running, fun here => absurd here take, unlock⟩
  next => exact patient

theorem enterProducer {call : Producer T} (patient : Patient exec) :
    Patient (exec.enterProducer producer call) where
  running := by
    rw [enterProducer_running]
    exact patient.running
  take := by
    rw [enterProducer_consumer, enterProducer_queue]
    exact patient.take
  unlock := by
    rw [enterProducer_consumer]
    exact patient.unlock

omit [DecidableEq P] in
theorem enterConsumer {call : Consumer T} (patient : Patient exec)
    (take : call ≠ .take .pop) (unlock : call ≠ .unlock .pop none) :
    Patient (exec.enterConsumer call) := by
  unfold MpscQueue.enterConsumer
  split
  next => exact ⟨patient.running, fun here => absurd here take, unlock⟩
  next => exact patient

omit [DecidableEq P] in
theorem consume (patient : Patient exec) : Patient exec.consume := by
  have running := patient.running
  unfold MpscQueue.consume
  cases here : exec.consumer with
  | idle => exact patient
  | lock call => cases call <;> exact patient.lockConsumer nofun nofun
  | check call =>
    dsimp only
    split
    next work =>
      refine ⟨running, ?_, nofun⟩
      intro _ nothing
      have nothing : exec.queue = [] := nothing
      simp [nothing, running] at work
    next => exact ⟨running, nofun, nofun⟩
  | asleep call => exact patient
  | awake call => exact patient.lockConsumer nofun nofun
  | expired => exact patient.lockConsumer nofun nofun
  | take call =>
    dsimp only
    split
    next nothing =>
      refine ⟨running, nofun, ?_⟩
      intro same
      injection same with pop
      exact patient.take (pop ▸ here) nothing
    next => exact ⟨running, nofun, nofun⟩
  | move call item rest => exact ⟨running, nofun, nofun⟩
  | unlock call result => exact ⟨running, nofun, nofun⟩
  | look => exact patient.lockConsumer nofun nofun
  | lookFind => exact ⟨running, nofun, nofun⟩
  | lookUnlock found => exact ⟨running, nofun, nofun⟩

theorem step {action : Action P T} (patient : Patient exec) (kept : action ≠ .setRunning false) :
    Patient (exec.step action) := by
  cases action with
  | push producer item => exact patient.enterProducer
  | tryPush producer item => exact patient.enterProducer
  | notifyAll producer => exact patient.enterProducer
  | produce producer => exact patient.produce
  | pop call => exact patient.enterConsumer nofun nofun
  | look => exact patient.enterConsumer nofun nofun
  | consume => exact patient.consume
  | timeout =>
    exact ⟨patient.running, fun here => patient.take (Consumer.timeout_take.mp here),
      fun here => patient.unlock (Consumer.timeout_unlock.mp here)⟩
  | spurious => exact patient.notify
  | setRunning running =>
    cases running with
    | true => exact ⟨rfl, patient.take, patient.unlock⟩
    | false => exact absurd rfl kept

theorem run {actions : List (Action P T)} (patient : Patient exec)
    (kept : Action.setRunning false ∉ actions) : Patient (exec.run actions) := by
  induction actions generalizing exec with
  | nil => exact patient
  | cons action actions ih =>
    have here : action ≠ .setRunning false := fun same => kept (same ▸ List.mem_cons_self)
    exact ih (patient.step here) fun later => kept (List.mem_cons_of_mem action later)

end Patient

theorem pop_waits_for_item (actions : List (Action P T)) (kept : Action.setRunning false ∉ actions) :
    (({ running := true } : MpscQueue P T).run actions).consumer ≠ .unlock .pop none := by
  have start : Patient ({ running := true } : MpscQueue P T) := ⟨rfl, nofun, nofun⟩
  exact (start.run kept).unlock

theorem pop_waits_for_item_spurious :
    (({ running := true } : MpscQueue Unit Nat).run
      [.pop .pop, .consume, .consume, .spurious, .consume, .consume]).consumer ≠ .unlock .pop none :=
  pop_waits_for_item _ (by simp)

end Patience

end MpscQueue

end HftFixEngine.Common
