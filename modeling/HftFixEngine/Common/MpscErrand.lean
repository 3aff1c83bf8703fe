import HftFixEngine.Common.MpscWakeUp

set_option autoImplicit false

namespace HftFixEngine.Common

namespace MpscQueue

variable {P T : Type} [DecidableEq P] {exec : MpscQueue P T}

inductive Errand where
  | none
  | pop (call : Pop)
  | look
  deriving DecidableEq, Repr

namespace Consumer

def errand : Consumer T → Errand
  | .idle => .none
  | .lock call => .pop call
  | .check call => .pop call
  | .asleep call => .pop call
  | .awake call => .pop call
  | .expired => .pop .popWithTimeout
  | .take call => .pop call
  | .move call _ _ => .pop call
  | .unlock call _ => .pop call
  | .look => .look
  | .lookFind => .look
  | .lookUnlock _ => .look

def inHand : Consumer T → List T
  | .unlock _ result => result.toList
  | _ => []

def ending : Consumer T → Bool
  | .unlock _ _ => true
  | .lookUnlock _ => true
  | _ => false

theorem ending_of_pop {consumer : Consumer T} {call : Pop} (errand : consumer.errand = .pop call) :
    consumer.ending = false ∨ ∃ result, consumer = .unlock call result := by
  cases consumer with
  | unlock other result =>
    injection errand with same
    exact .inr ⟨result, by rw [same]⟩
  | lookUnlock _ => nomatch errand
  | _ => exact .inl rfl

theorem ending_of_look {consumer : Consumer T} (errand : consumer.errand = .look) :
    consumer.ending = false ∨ ∃ found, consumer = .lookUnlock found := by
  cases consumer with
  | lookUnlock found => exact .inr ⟨found, rfl⟩
  | unlock _ _ => nomatch errand
  | _ => exact .inl rfl

theorem idle_of_errand {consumer : Consumer T} (none : consumer.errand = .none) :
    consumer = .idle := by
  cases consumer with
  | idle => rfl
  | _ => nomatch none

@[simp]
theorem notified_errand (consumer : Consumer T) : consumer.notified.errand = consumer.errand := by
  cases consumer <;> rfl

@[simp]
theorem notified_inHand (consumer : Consumer T) : consumer.notified.inHand = consumer.inHand := by
  cases consumer <;> rfl

@[simp]
theorem timeout_errand (consumer : Consumer T) : consumer.timeout.errand = consumer.errand := by
  cases consumer with
  | asleep call => cases call <;> rfl
  | awake call => cases call <;> rfl
  | _ => rfl

@[simp]
theorem timeout_inHand (consumer : Consumer T) : consumer.timeout.inHand = consumer.inHand := by
  cases consumer with
  | asleep call => cases call <;> rfl
  | awake call => cases call <;> rfl
  | _ => rfl

end Consumer

omit [DecidableEq P] in
theorem lockConsumer_goes_on {consumer phase : Consumer T} (here : exec.consumer = consumer)
    (errand : phase.errand = consumer.errand) (phaseHand : phase.inHand = [])
    (hand : consumer.inHand = []) :
    (exec.lockConsumer phase).consumer.errand = consumer.errand ∧
      (exec.lockConsumer phase).removed =
        exec.removed ++ (exec.lockConsumer phase).consumer.inHand := by
  unfold lockConsumer
  split
  next => exact ⟨errand, by simp [phaseHand]⟩
  next => exact ⟨congrArg Consumer.errand here, by simp [here, hand]⟩

omit [DecidableEq P] in
theorem consume_goes_on (on : exec.consumer.ending = false) :
    exec.consume.consumer.errand = exec.consumer.errand ∧
      exec.consume.removed = exec.removed ++ exec.consume.consumer.inHand := by
  unfold consume
  cases here : exec.consumer with
  | idle => simp [here, Consumer.errand, Consumer.inHand]
  | lock call =>
    cases call <;> exact lockConsumer_goes_on here rfl rfl rfl
  | check call =>
    dsimp only
    split <;> simp [Consumer.errand, Consumer.inHand]
  | asleep call => simp [here, Consumer.errand, Consumer.inHand]
  | awake call => exact lockConsumer_goes_on here rfl rfl rfl
  | expired => exact lockConsumer_goes_on here rfl rfl rfl
  | take call =>
    dsimp only
    split <;> simp [Consumer.errand, Consumer.inHand]
  | move call item rest => simp [Consumer.errand, Consumer.inHand]
  | look => exact lockConsumer_goes_on here rfl rfl rfl
  | lookFind => simp [Consumer.errand, Consumer.inHand]
  | _ => simp [here, Consumer.ending] at on

omit [DecidableEq P] in
theorem consume_accepted : exec.consume.accepted = exec.accepted := by
  have locked (phase : Consumer T) : (exec.lockConsumer phase).accepted = exec.accepted := by
    unfold lockConsumer
    split <;> rfl
  unfold consume
  cases exec.consumer with
  | lock call => cases call <;> exact locked _
  | check call =>
    dsimp only
    split <;> rfl
  | awake call => exact locked _
  | expired => exact locked _
  | take call =>
    dsimp only
    split <;> rfl
  | look => exact locked _
  | _ => rfl

omit [DecidableEq P] in
-- A call that goes without an item has seen the container empty.
theorem consume_nothing (on : exec.consumer.ending = false) {call : Pop}
    (nothing : exec.consume.consumer = .unlock call none) : exec.queue = [] := by
  have locked {phase : Consumer T} (other : phase ≠ .unlock call none)
      (before : exec.consumer ≠ .unlock call none) :
      (exec.lockConsumer phase).consumer ≠ .unlock call none := by
    unfold lockConsumer
    split
    next => exact other
    next => exact before
  have before : exec.consumer ≠ .unlock call none := by
    intro here
    simp [here, Consumer.ending] at on
  unfold consume at nothing
  cases here : exec.consumer with
  | lock call =>
    rw [here] at nothing
    cases call <;> exact absurd nothing (locked nofun before)
  | check call =>
    rw [here] at nothing
    dsimp only at nothing
    split at nothing <;> nomatch nothing
  | awake call =>
    rw [here] at nothing
    exact absurd nothing (locked nofun before)
  | expired =>
    rw [here] at nothing
    exact absurd nothing (locked nofun before)
  | look =>
    rw [here] at nothing
    exact absurd nothing (locked nofun before)
  | take call =>
    rw [here] at nothing
    dsimp only at nothing
    split at nothing
    next empty => exact empty
    next => nomatch nothing
  | _ => simp [here] at nothing

structure Turned (before now : MpscQueue P T) (consumer : Consumer T) : Prop where
  producers : now.producers = before.producers
  running : now.running = before.running
  accepted : now.accepted = before.accepted
  removed : now.removed = before.removed
  consumer : now.consumer = consumer

omit [DecidableEq P] in
theorem Turned.consume (ending : exec.consumer.ending = true) : Turned exec exec.consume .idle := by
  unfold MpscQueue.consume
  cases here : exec.consumer with
  | unlock call result => exact ⟨rfl, rfl, rfl, rfl, rfl⟩
  | lookUnlock found => exact ⟨rfl, rfl, rfl, rfl, rfl⟩
  | _ => simp [here, Consumer.ending] at ending

omit [DecidableEq P] in
theorem Turned.enter (idle : exec.consumer = .idle) (call : Consumer T) :
    Turned exec (exec.enterConsumer call) call := by
  unfold enterConsumer
  rw [idle]
  exact ⟨rfl, rfl, rfl, rfl, rfl⟩

omit [DecidableEq P] in
theorem Turned.again {before : MpscQueue P T} (turned : Turned before exec .idle)
    (call : Consumer T) : Turned before (exec.enterConsumer call) call := by
  have entered := Turned.enter turned.consumer call
  exact ⟨entered.producers.trans turned.producers, entered.running.trans turned.running,
    entered.accepted.trans turned.accepted, entered.removed.trans turned.removed, entered.consumer⟩

structure Aside (before now : MpscQueue P T) : Prop where
  errand : now.consumer.errand = before.consumer.errand
  inHand : now.consumer.inHand = before.consumer.inHand
  unlock : ∀ call result,
    now.consumer = .unlock call result → before.consumer = .unlock call result
  removed : now.removed = before.removed
  accepted : before.accepted <+: now.accepted

omit [DecidableEq P] in
theorem Aside.notify : Aside exec exec.notify where
  errand := Consumer.notified_errand _
  inHand := Consumer.notified_inHand _
  unlock := fun _ _ => Consumer.notified_unlock.mp
  removed := rfl
  accepted := List.prefix_rfl

theorem Aside.timeout : Aside exec (exec.step .timeout) where
  errand := Consumer.timeout_errand _
  inHand := Consumer.timeout_inHand _
  unlock := fun _ _ => Consumer.timeout_unlock.mp
  removed := rfl
  accepted := List.prefix_rfl

theorem Aside.enterProducer {producer : P} {call : Producer T} :
    Aside exec (exec.enterProducer producer call) := by
  unfold MpscQueue.enterProducer
  split <;> exact ⟨rfl, rfl, fun _ _ => id, rfl, List.prefix_rfl⟩

theorem enterProducer_other {producer other : P} {call : Producer T} (different : other ≠ producer) :
    (exec.enterProducer producer call).producers other = exec.producers other := by
  unfold MpscQueue.enterProducer
  split
  next => exact setProducer_other _ different
  next => rfl

theorem Aside.lockProducer {producer : P} {phase : Producer T} :
    Aside exec (exec.lockProducer producer phase) := by
  unfold MpscQueue.lockProducer
  split <;> exact ⟨rfl, rfl, fun _ _ => id, rfl, List.prefix_rfl⟩

theorem Aside.produce {producer : P} : Aside exec (exec.produce producer) := by
  have notified : Aside exec exec.notify := .notify
  unfold MpscQueue.produce
  cases exec.producers producer with
  | push item => exact .lockProducer
  | tryPush item =>
    dsimp only
    split
    next => exact ⟨rfl, rfl, fun _ _ => id, rfl, List.prefix_rfl⟩
    next => exact .lockProducer
  | notifyAll => exact .lockProducer
  | pushWrite item found =>
    exact ⟨rfl, rfl, fun _ _ => id, rfl, List.prefix_append ..⟩
  | tryPushWrite item found =>
    exact ⟨rfl, rfl, fun _ _ => id, rfl, List.prefix_append ..⟩
  | pushNotify item =>
    exact ⟨notified.errand, notified.inHand, notified.unlock, rfl, List.prefix_rfl⟩
  | tryPushNotify item =>
    exact ⟨notified.errand, notified.inHand, notified.unlock, rfl, List.prefix_rfl⟩
  | notifyAllSignal =>
    exact ⟨notified.errand, notified.inHand, notified.unlock, rfl, List.prefix_rfl⟩
  | _ => exact ⟨rfl, rfl, fun _ _ => id, rfl, List.prefix_rfl⟩

end MpscQueue

end HftFixEngine.Common
