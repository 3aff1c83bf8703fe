import HftFixEngine.Common.Handoff
import Mathlib.Logic.Function.Iterate

set_option autoImplicit false

namespace HftFixEngine.Common

variable {T V : Type} {capacity : Capacity} {maxItems : Nat}

namespace Consumer

-- The calls ask for `maxItems`, and a copy is begun only when there is something to copy.
def Paced (maxItems : Nat) : Consumer T → Prop
  | .popBatch asked => asked = maxItems
  | .popBatchRefresh asked _ => asked = maxItems
  | .popBatchCopy _ count _ => 0 < count ∧ count ≤ maxItems
  | _ => True

def rank (maxItems : Nat) : Consumer T → Nat
  | .popBatchCopy _ count outputItems => count - outputItems.length + 1
  | .popBatchRefresh _ _ => maxItems + 2
  | .popBatch _ => maxItems + 3
  | _ => maxItems + 4

end Consumer

namespace Producer

def rank : Producer T → Nat
  | .push _ => 4
  | .pushRefresh _ _ => 3
  | .pushCopy _ _ => 2
  | _ => 1

end Producer

namespace Execution

variable {exec : Execution T}

theorem startBatchMove_paced (positive : 0 < maxItems) {released seen : Nat} (order : released ≤ seen)
    (near : seen < released + capacity.size)
    (apart : ¬ released % capacity.size = seen % capacity.size) :
    (startBatchMove maxItems (released % capacity.size)
      (capacity.available (seen % capacity.size) (released % capacity.size)) : Consumer T).Paced
        maxItems ∧
    (startBatchMove maxItems (released % capacity.size)
      (capacity.available (seen % capacity.size) (released % capacity.size)) : Consumer T).rank
        maxItems ≤ maxItems + 1 := by
  rw [Ring.index_eq_iff order near] at apart
  rw [capacity.available_index order near]
  simp only [startBatchMove, Consumer.Paced, Consumer.rank, List.length_nil]
  omega

theorem consume_paced (positive : 0 < maxItems) (ok : ExecutionOk capacity exec)
    (batching : exec.consumer.Batching) (paced : exec.consumer.Paced maxItems) :
    (exec.consume capacity id).consumer.Paced maxItems := by
  have room := ok.ring.room
  have published := ok.ring.moved_le
  obtain ⟨seen, stale, order, cached, phase⟩ := ok.consumer
  cases here : exec.consumer with
  | popBatch asked =>
    obtain rfl : asked = maxItems := by simpa [here, Consumer.Paced] using paced
    simp only [consume, here]
    split
    next => rfl
    next apart =>
      rw [ok.ring.readPos, cached] at apart ⊢
      exact (startBatchMove_paced positive order (by omega) apart).1
  | popBatchRefresh asked currentRead =>
    obtain rfl : asked = maxItems := by simpa [here, Consumer.Paced] using paced
    rw [here] at phase
    simp only [consume, here]
    split
    next => trivial
    next apart =>
      rw [show currentRead = _ from phase, ok.ring.writePos] at apart ⊢
      exact (startBatchMove_paced positive (by omega) (by omega) apart).1
  | popBatchCopy currentRead count outputItems =>
    rw [here] at paced
    simp only [consume, here]
    split
    next => exact paced
    next => trivial
  | idle => simp [consume, here, Consumer.Paced]
  | _ => simp [here, Consumer.Batching] at batching

theorem consume_progress (positive : 0 < maxItems) (ok : ExecutionOk capacity exec)
    (batching : exec.consumer.Batching) (paced : exec.consumer.Paced maxItems)
    (busy : exec.consumer ≠ .idle) (waiting : exec.returned.length < exec.accepted.length) :
    let now := exec.consume capacity id
    Consumer.popped exec.consumer now.consumer ≠ [] ∨
      (Consumer.popped exec.consumer now.consumer = [] ∧
        now.consumer.rank maxItems < exec.consumer.rank maxItems) := by
  have room := ok.ring.room
  obtain ⟨seen, stale, order, cached, phase⟩ := ok.consumer
  cases here : exec.consumer with
  | popBatch asked =>
    obtain rfl : asked = maxItems := by simpa [here, Consumer.Paced] using paced
    simp only [consume, here]
    split
    next => simp [Consumer.popped, Consumer.rank]
    next apart =>
      rw [ok.ring.readPos, cached] at apart ⊢
      have rank := (startBatchMove_paced (T := T) positive order (by omega) apart).2
      exact .inr ⟨rfl, Nat.lt_of_le_of_lt rank (by simp [Consumer.rank])⟩
  | popBatchRefresh asked currentRead =>
    obtain rfl : asked = maxItems := by simpa [here, Consumer.Paced] using paced
    rw [here] at phase
    have apart : ¬ exec.returned.length % capacity.size = exec.accepted.length % capacity.size := by
      rw [Ring.index_eq_iff (by omega) (by omega)]
      omega
    simp only [consume, here]
    rw [show currentRead = _ from phase, ok.ring.writePos, if_neg apart]
    have rank := (startBatchMove_paced (T := T) positive (Nat.le_of_lt waiting) (by omega) apart).2
    exact .inr ⟨rfl, Nat.lt_of_le_of_lt rank (by simp [Consumer.rank])⟩
  | popBatchCopy currentRead count outputItems =>
    rw [here] at paced
    simp only [consume, here]
    split
    next inside =>
      refine .inr ⟨rfl, ?_⟩
      simp only [Consumer.rank, List.length_append, List.length_singleton]
      omega
    next complete =>
      refine .inl ?_
      rintro (none : outputItems = [])
      rw [none] at complete
      exact complete paced.1
  | idle => exact absurd here busy
  | _ => simp [here, Consumer.Batching] at batching

-- A push into an empty queue never turns back.
theorem produce_progress (ok : ExecutionOk capacity exec) {packet : T}
    (pushing : exec.producer.Pushing packet) (drained : exec.returned.length = exec.accepted.length) :
    let now := exec.produce capacity
    Sending.after packet exec.producer now.producer = .ready ∨
      (Sending.after packet exec.producer now.producer = .call packet ∧
        now.producer.rank < exec.producer.rank) := by
  have twoCells := capacity.atLeastTwo
  obtain ⟨seen, stale, room, cached, phase⟩ := ok.producer
  cases here : exec.producer with
  | push item =>
    simp only [produce, here]
    split <;> simp [Sending.after, Producer.rank]
  | pushRefresh item currentWrite =>
    rw [here] at phase
    have apart : ¬ capacity.wrap (currentWrite + 1) = exec.readPos := by
      rw [show currentWrite = _ from phase, ok.ring.readPos, capacity.wrap_index, drained,
        Ring.next_eq_iff (Nat.le_refl _) (by omega)]
      omega
    simp only [produce, here]
    rw [if_neg apart]
    simp [Sending.after, Producer.rank]
  | pushCopy item currentWrite => simp [produce, here, Sending.after, Producer.rank]
  | pushStore item currentWrite => simp [produce, here, Sending.after]
  | _ => simp [here, Producer.Pushing] at pushing

end Execution

namespace Handoff

variable {handoff : Handoff T V}

theorem Ok.waiting (ok : Ok capacity handoff) (empty : handoff.batch = [])
    (some : handoff.outstanding capacity ≠ []) :
    handoff.queue.returned.length < handoff.queue.accepted.length := by
  have whole := congrArg List.length ok.accepted_eq
  have positive := List.length_pos_iff.mpr some
  rw [ok.returned, empty]
  simp only [List.length_append, List.length_map, List.append_nil] at whole ⊢
  omega

theorem work_paced (positive : 0 < maxItems) (ok : Ok capacity handoff)
    (paced : handoff.queue.consumer.Paced maxItems) (observe : T → V) :
    (handoff.work capacity maxItems observe).queue.consumer.Paced maxItems := by
  unfold work
  split
  next => exact paced
  next =>
    split
    next idle => simp [Execution.enterPop, idle, Consumer.Paced]
    next => exact Execution.consume_paced positive ok.queue ok.batching paced

theorem work_progress (positive : 0 < maxItems) (ok : Ok capacity handoff)
    (paced : handoff.queue.consumer.Paced maxItems) (observe : T → V)
    (empty : handoff.batch = []) (some : handoff.outstanding capacity ≠ []) :
    let now := handoff.work capacity maxItems observe
    now.batch ≠ [] ∨
      (now.batch = [] ∧
        now.queue.consumer.rank maxItems < handoff.queue.consumer.rank maxItems) := by
  have waiting := ok.waiting empty some
  simp only [work, empty]
  split
  next idle => simp [Execution.enterPop, idle, Consumer.rank]
  next busy => exact Execution.consume_progress positive ok.queue ok.batching paced busy waiting

theorem work_reaches_batch (positive : 0 < maxItems) (ok : Ok capacity handoff)
    (paced : handoff.queue.consumer.Paced maxItems) (observe : T → V)
    (some : handoff.outstanding capacity ≠ []) :
    ∃ n, let now := (work capacity maxItems observe)^[n] handoff
      Ok capacity now ∧ now.queue.consumer.Paced maxItems ∧ now.sending = handoff.sending ∧
        now.queue.accepted = handoff.queue.accepted ∧ now.parsed = handoff.parsed ∧
        now.batch ≠ [] := by
  induction rank : handoff.queue.consumer.rank maxItems using Nat.strong_induction_on
    generalizing handoff with
  | h rank ih =>
    by_cases empty : handoff.batch = []
    next =>
      have nowPaced := work_paced positive ok paced observe
      obtain ⟨nowOk, sending, accepted, ⟨packet, later, first, -⟩ | ⟨-, same, parsed⟩⟩ :=
        ok.work_cases maxItems observe
      next => simp [empty] at first
      obtain ready | ⟨-, closer⟩ := work_progress positive ok paced observe empty some
      next => exact ⟨1, nowOk, nowPaced, sending, accepted, parsed, ready⟩
      next =>
        obtain ⟨n, endOk, endPaced, endSending, endAccepted, endParsed, ready⟩ :=
          ih _ (by omega) nowOk nowPaced (by rw [same]; exact some) rfl
        refine ⟨n + 1, ?_⟩
        rw [Function.iterate_succ_apply]
        exact ⟨endOk, endPaced, endSending.trans sending, endAccepted.trans accepted,
          endParsed.trans parsed, ready⟩
    next => exact ⟨0, ok, paced, rfl, rfl, rfl, empty⟩

theorem work_reaches (positive : 0 < maxItems) (ok : Ok capacity handoff)
    (paced : handoff.queue.consumer.Paced maxItems) (observe : T → V)
    (some : handoff.outstanding capacity ≠ []) :
    ∃ n, let now := (work capacity maxItems observe)^[n] handoff
      Ok capacity now ∧ now.queue.consumer.Paced maxItems ∧ now.sending = handoff.sending ∧
        now.queue.accepted = handoff.queue.accepted ∧
        now.parsed.length = handoff.parsed.length + 1 := by
  obtain ⟨n, ok, paced, sending, accepted, parsed, ready⟩ :=
    work_reaches_batch positive ok paced observe some
  refine ⟨n + 1, ?_⟩
  rw [Function.iterate_succ_apply']
  have nowPaced := work_paced positive ok paced observe
  obtain ⟨nowOk, nowSending, nowAccepted, ⟨packet, rest, -, -, -, nowParsed⟩ | ⟨first, -, -⟩⟩ :=
    ok.work_cases maxItems observe
  next =>
    refine ⟨nowOk, nowPaced, nowSending.trans sending, nowAccepted.trans accepted, ?_⟩
    rw [nowParsed, parsed, List.length_append, List.length_singleton]
  next => exact absurd (List.head?_eq_none_iff.mp first) ready

theorem send_consumer (gRunning : Bool) :
    (handoff.send capacity gRunning).queue.consumer = handoff.queue.consumer := by
  unfold send
  split
  case h_1 => rfl
  case h_2 => exact Execution.produce_consumer capacity handoff.queue
  case h_3 =>
    split
    next => exact Execution.enterPush_consumer handoff.queue _
    next => rfl

def sendRank (handoff : Handoff T V) : Nat :=
  match handoff.sending with
  | .ready => 0
  | .call _ => handoff.queue.producer.rank
  | .failed _ => 5

theorem send_progress (ok : Ok capacity handoff) {packet : T}
    (sending : handoff.sending.packet? = some packet) (empty : handoff.outstanding capacity = []) :
    let now := handoff.send capacity true
    now.sending = .ready ∨ (now.sending = .call packet ∧ now.sendRank < handoff.sendRank) := by
  have sender := ok.sender
  obtain calling | failed := Sending.pushing_of_some sending
  next =>
    rw [calling] at sender
    simp only [send, calling]
    have drained : handoff.queue.returned.length = handoff.queue.accepted.length := by
      have front := (List.append_eq_nil_iff.mp empty).1
      have batch : handoff.batch = [] := (List.append_eq_nil_iff.mp front).1
      rw [← ok.accepted_eq, empty, ok.returned, batch]
    obtain ready | ⟨again, closer⟩ := Execution.produce_progress ok.queue sender drained
    next => exact .inl ready
    next =>
      refine .inr ⟨again, ?_⟩
      simp only [sendRank, again, calling]
      exact closer
  next =>
    rw [failed] at sender
    simp only [send, failed]
    refine .inr ⟨rfl, ?_⟩
    simp [sendRank, startSend, failed, Execution.enterPush, show handoff.queue.producer = _ from sender,
      Producer.rank]

end Handoff

end HftFixEngine.Common
