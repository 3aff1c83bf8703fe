import HftFixEngine.Common.SPSCCalls
import Mathlib.Logic.Function.Iterate

set_option autoImplicit false

namespace HftFixEngine.Common

namespace Execution

variable {T : Type} {capacity : Capacity} {movedFrom : T → T} {exec : Execution T}

structure BetweenCalls (exec : Execution T) : Prop where
  producer : exec.producer = .idle
  consumer : exec.consumer = .idle

def Ends (step : Execution T → Execution T) (exec : Execution T) (queue : SPSCQueue T) : Prop :=
  ∃ steps, BetweenCalls (step^[steps] exec) ∧ (step^[steps] exec).toSPSCQueue = queue

namespace Ends

variable {step : Execution T → Execution T} {queue : SPSCQueue T}

theorem now (between : exec.BetweenCalls) : Ends step exec exec.toSPSCQueue :=
  ⟨0, between, rfl⟩

theorem next (ends : Ends step (step exec) queue) : Ends step exec queue := by
  obtain ⟨steps, between, same⟩ := ends
  exact ⟨steps + 1, between, same⟩

end Ends

section Producer

theorem ends_pushStore (consumer : exec.consumer = .idle) {item : T} {currentWrite : Nat}
    (here : exec.producer = .pushStore item currentWrite) :
    Ends (produce capacity) exec
      { exec.toSPSCQueue with writePos := capacity.wrap (currentWrite + 1) } := by
  apply Ends.next
  simp only [produce, here]
  exact .now ⟨rfl, consumer⟩

theorem ends_pushCopy (consumer : exec.consumer = .idle) {item : T}
    (here : exec.producer = .pushCopy item exec.writePos) :
    Ends (produce capacity) exec (exec.store capacity item) := by
  apply Ends.next
  simp only [produce, here]
  refine ends_pushStore ?_ rfl
  exact consumer

theorem ends_push (consumer : exec.consumer = .idle) {item : T} (here : exec.producer = .push item) :
    Ends (produce capacity) exec (exec.push capacity item).2 := by
  apply Ends.next
  simp only [produce, here]
  unfold SPSCQueue.push
  dsimp only
  split
  next =>
    apply Ends.next
    simp only [produce]
    split
    next => exact .now ⟨rfl, consumer⟩
    next =>
      refine ends_pushCopy ?_ rfl
      exact consumer
  next =>
    refine ends_pushCopy ?_ rfl
    exact consumer

theorem ends_pushBatchCopy (consumer : exec.consumer = .idle) {items : List T}
    {published copied : Nat} (fits : items.length ≤ capacity.size) (within : copied ≤ items.length)
    (here : exec.producer = .pushBatchCopy items (published % capacity.size) copied) :
    Ends (produce capacity) exec
      { exec.toSPSCQueue with
        buffer := Ring.copy capacity.size exec.buffer (published + copied) (items.drop copied)
        writePos := (published + items.length) % capacity.size } := by
  induction left : items.length - copied generalizing exec copied with
  | zero =>
    have none : items[copied]? = none := List.getElem?_eq_none (by omega)
    rw [List.drop_eq_nil_of_le (by omega)]
    apply Ends.next
    simp only [produce, here, none, capacity.wrap_index]
    exact .now ⟨rfl, consumer⟩
  | succ left ih =>
    have inside : copied < items.length := by omega
    have item : items[copied]? = some items[copied] := List.getElem?_eq_getElem inside
    rw [List.drop_eq_getElem_cons inside]
    apply Ends.next
    simp only [produce, here, item, Ring.chunkSlot_index inside fits]
    refine ih ?_ inside rfl (by omega)
    exact consumer

theorem ends_copyBatch (released published : Nat) (consumer : exec.consumer = .idle)
    (ok : exec.Counted capacity released published) {items : List T} {freeSlots : Nat}
    (fits : freeSlots ≤ capacity.size)
    (here : exec.producer = startBatchCopy items exec.writePos freeSlots) :
    Ends (produce capacity) exec (exec.copyBatch capacity freeSlots items).2 := by
  have length : (items.take (min freeSlots items.length)).length = min freeSlots items.length :=
    List.length_take_of_le (Nat.min_le_right _ _)
  rw [startBatchCopy, ok.writePos] at here
  rw [ok.copyBatch_eq items fits]
  exact ends_pushBatchCopy consumer (by omega) (Nat.zero_le _) here

theorem ends_pushBatch (released published : Nat) (consumer : exec.consumer = .idle)
    (ok : exec.Counted capacity released published) {items : List T}
    (here : exec.producer = .pushBatch items) :
    Ends (produce capacity) exec (exec.pushBatch capacity items).2 := by
  obtain ⟨stale, fresh⟩ := ok.freeSlots_le
  apply Ends.next
  simp only [produce, here]
  unfold SPSCQueue.pushBatch
  dsimp only
  split
  next =>
    apply Ends.next
    simp only [produce]
    refine ends_copyBatch released published ?_ ok.refreshRead fresh rfl
    exact consumer
  next =>
    refine ends_copyBatch released published ?_ ?_ stale rfl
    next => exact consumer
    next => exact ok

end Producer

section Consumer

theorem ends_popStore (producer : exec.producer = .idle) {item : T} {currentRead : Nat}
    (here : exec.consumer = .popStore currentRead item) :
    Ends (consume capacity movedFrom) exec
      { exec.toSPSCQueue with readPos := capacity.wrap (currentRead + 1) } := by
  apply Ends.next
  simp only [consume, here]
  exact .now ⟨producer, rfl⟩

theorem ends_popCopy (producer : exec.producer = .idle)
    (here : exec.consumer = .popCopy exec.readPos) :
    Ends (consume capacity movedFrom) exec (exec.load capacity movedFrom).2 := by
  apply Ends.next
  simp only [consume, here]
  refine ends_popStore ?_ rfl
  exact producer

theorem ends_pop (producer : exec.producer = .idle) (here : exec.consumer = .pop) :
    Ends (consume capacity movedFrom) exec (exec.pop capacity movedFrom).2 := by
  apply Ends.next
  simp only [consume, here]
  unfold SPSCQueue.pop
  dsimp only
  split
  next =>
    apply Ends.next
    simp only [consume]
    split
    next => exact .now ⟨producer, rfl⟩
    next =>
      refine ends_popCopy ?_ rfl
      exact producer
  next =>
    refine ends_popCopy ?_ rfl
    exact producer

theorem ends_popBatchCopy (producer : exec.producer = .idle) {released count remaining : Nat}
    {outputItems : List T} (fits : count ≤ capacity.size)
    (whole : outputItems.length + remaining = count)
    (here : exec.consumer = .popBatchCopy (released % capacity.size) count outputItems) :
    Ends (consume capacity movedFrom) exec
      { exec.toSPSCQueue with
        buffer := (Ring.move movedFrom capacity.size exec.buffer (released + outputItems.length)
          remaining).2
        readPos := (released + count) % capacity.size } := by
  induction remaining generalizing exec outputItems with
  | zero =>
    apply Ends.next
    simp only [consume, here, capacity.wrap_index]
    rw [if_neg (by omega)]
    exact .now ⟨producer, rfl⟩
  | succ remaining ih =>
    have inside : outputItems.length < count := by omega
    have onward (item : T) :
        released + outputItems.length + 1 = released + (outputItems ++ [item]).length := by
      rw [List.length_append, List.length_singleton, Nat.add_assoc]
    apply Ends.next
    simp only [consume, here, Ring.chunkSlot_index inside fits, Ring.move]
    rw [if_pos inside, onward]
    refine ih ?_ ?_ rfl
    next => exact producer
    next =>
      rw [List.length_append, List.length_singleton]
      omega

theorem ends_moveBatch (released published : Nat) (producer : exec.producer = .idle)
    (ok : exec.Counted capacity released published) {maxItems available : Nat}
    (fits : available ≤ capacity.size)
    (here : exec.consumer = startBatchMove maxItems exec.readPos available) :
    Ends (consume capacity movedFrom) exec
      (exec.moveBatch capacity movedFrom available maxItems).2.2 := by
  rw [startBatchMove, ok.readPos] at here
  rw [ok.moveBatch_eq maxItems fits]
  exact ends_popBatchCopy producer (by omega) (Nat.zero_add _) here

theorem ends_popBatch (released published : Nat) (producer : exec.producer = .idle)
    (ok : exec.Counted capacity released published) {maxItems : Nat}
    (here : exec.consumer = .popBatch maxItems) :
    Ends (consume capacity movedFrom) exec (exec.popBatch capacity movedFrom maxItems).2.2 := by
  obtain ⟨stale, fresh⟩ := ok.available_le
  apply Ends.next
  simp only [consume, here]
  unfold SPSCQueue.popBatch
  dsimp only
  split
  next =>
    apply Ends.next
    simp only [consume]
    split
    next => exact .now ⟨producer, rfl⟩
    next =>
      refine ends_moveBatch released published ?_ ok.refreshWrite fresh rfl
      exact producer
  next =>
    refine ends_moveBatch released published ?_ ?_ stale rfl
    next => exact producer
    next => exact ok

end Consumer

theorem foldl_replicate (action : Action T) (steps : Nat) (exec : Execution T) :
    (List.replicate steps action).foldl (act capacity movedFrom) exec =
      (fun exec => exec.act capacity movedFrom action)^[steps] exec := by
  induction steps generalizing exec with
  | zero => rfl
  | succ steps ih => exact ih _

theorem actions_of_ends {queue : SPSCQueue T} (first again : Action T)
    (ends : Ends (fun exec => exec.act capacity movedFrom again)
      (exec.act capacity movedFrom first) queue) :
    ∃ actions : List (Action T),
      BetweenCalls (actions.foldl (act capacity movedFrom) exec) ∧
        (actions.foldl (act capacity movedFrom) exec).toSPSCQueue = queue := by
  obtain ⟨steps, ends⟩ := ends
  refine ⟨first :: List.replicate steps again, ?_⟩
  rw [List.foldl_cons, foldl_replicate]
  exact ends

-- Every whole call is made of actions of one of the threads.
theorem call_alone (between : exec.BetweenCalls) {released published : Nat}
    (ok : exec.Counted capacity released published) (call : QueueCall T) :
    ∃ actions : List (Action T),
      BetweenCalls (actions.foldl (act capacity movedFrom) exec) ∧
        (actions.foldl (act capacity movedFrom) exec).toSPSCQueue =
          exec.call capacity movedFrom call := by
  obtain ⟨producer, consumer⟩ := between
  cases call with
  | push item =>
    refine actions_of_ends (.push item) .produce ?_
    simp only [act, enterPush, producer]
    refine ends_push ?_ rfl
    exact consumer
  | pushBatch items =>
    refine actions_of_ends (.pushBatch items) .produce ?_
    simp only [act, enterPush, producer]
    refine ends_pushBatch released published ?_ ?_ rfl
    next => exact consumer
    next => exact ok
  | pop =>
    refine actions_of_ends .pop .consume ?_
    simp only [act, enterPop, consumer]
    refine ends_pop ?_ rfl
    exact producer
  | popBatch maxItems =>
    refine actions_of_ends (.popBatch maxItems) .consume ?_
    simp only [act, enterPop, consumer]
    refine ends_popBatch released published ?_ ?_ rfl
    next => exact producer
    next => exact ok

theorem run_afterCalls (capacity : Capacity) (movedFrom : T → T) (cells : Nat → T)
    (calls : List (QueueCall T)) :
    ∃ actions : List (Action T),
      BetweenCalls (run capacity movedFrom cells actions) ∧
        (run capacity movedFrom cells actions).toSPSCQueue =
          SPSCQueue.afterCalls capacity movedFrom cells calls := by
  induction calls using List.reverseRecOn with
  | nil => exact ⟨[], ⟨rfl, rfl⟩, rfl⟩
  | append_singleton calls call ih =>
    obtain ⟨actions, between, reached⟩ := ih
    obtain ⟨released, published, ok⟩ := SPSCQueue.Counted.afterCalls movedFrom cells calls
    rw [← reached] at ok
    obtain ⟨more, between, called⟩ := call_alone between ok call
    refine ⟨actions ++ more, ?_⟩
    unfold run at between called reached ⊢
    rw [List.foldl_append]
    refine ⟨between, ?_⟩
    rw [called, reached]
    simp [SPSCQueue.afterCalls]

end Execution

end HftFixEngine.Common
