import HftFixEngine.Common.SPSCQueue
import Mathlib.Data.List.Infix

set_option autoImplicit false

namespace HftFixEngine.Common

variable {T : Type}

def Producer.pending : Producer T → List T
  | .pushStore item _ => [item]
  | .pushBatchCopy items _ copied => items.take copied
  | _ => []

def Consumer.moved : Consumer T → List T
  | .popStore _ item => [item]
  | .popBatchCopy _ _ outputItems => outputItems
  | _ => []

def cellState (published copied n : Nat) : CellState :=
  if n < published then .published else if n < published + copied then .written else .free

structure RingOk (capacity : Capacity) (exec : Execution T) (pending moved : List T) : Prop where
  writePos : exec.writePos = exec.accepted.length % capacity.size
  readPos : exec.readPos = exec.returned.length % capacity.size
  fifo : exec.returned ++ moved <+: exec.accepted
  room : exec.accepted.length + pending.length < exec.returned.length + capacity.size
  contents : Ring.Window exec.buffer capacity.size (exec.returned.length + moved.length)
    (exec.accepted.length + pending.length)
    fun n item => (exec.accepted ++ pending)[n]? = some item
  cells : Ring.Window exec.cells capacity.size (exec.returned.length + moved.length)
    (exec.returned.length + moved.length + capacity.size)
    fun n state => state = cellState exec.accepted.length pending.length n
  goodWrites : exec.badWrites = []
  goodReads : exec.badReads = []

namespace RingOk

variable {capacity : Capacity} {exec : Execution T} {pending moved : List T}

theorem moved_le (ok : RingOk capacity exec pending moved) :
    exec.returned.length + moved.length ≤ exec.accepted.length := by
  simpa using ok.fifo.length_le

theorem write (ok : RingOk capacity exec pending moved) (item : T)
    (room : exec.accepted.length + pending.length + 1 < exec.returned.length + capacity.size) :
    RingOk capacity
      (exec.write capacity ((exec.accepted.length + pending.length) % capacity.size) item)
      (pending ++ [item]) moved := by
  have moved_le := ok.moved_le
  have was_free := ok.cells (exec.accepted.length + pending.length) (by omega) (by omega)
  constructor
  case writePos => exact ok.writePos
  case readPos => exact ok.readPos
  case fifo => exact ok.fifo
  case room =>
    simp only [Execution.write, List.length_append, List.length_singleton]
    omega
  case contents =>
    simp only [Execution.write, List.length_append, List.length_singleton, ← Nat.add_assoc]
    refine Ring.Window.push ?_ (by omega) (by omega) ?_
    next =>
      refine ok.contents.imp ?_
      intro n x _ below found
      rw [← List.append_assoc, List.getElem?_append_left (by simpa using below)]
      exact found
    next =>
      rw [← List.append_assoc, List.getElem?_append_right (by simp)]
      simp
  case cells =>
    simp only [Execution.write, List.length_append, List.length_singleton]
    refine Ring.Window.update ⟨by omega, by omega⟩ (by omega) ?_ ?_
    next =>
      simp only [cellState]
      rw [if_neg (by omega), if_pos (by omega)]
    next =>
      intro n above below other
      rw [ok.cells n above below]
      simp only [cellState]
      split_ifs <;> first | rfl | omega
  case goodWrites =>
    have inside := Nat.mod_lt (exec.accepted.length + pending.length)
      (show 0 < capacity.size by omega)
    have free : cellState exec.accepted.length pending.length
        (exec.accepted.length + pending.length) = .free := by
      simp [cellState]
    simp only [Execution.write, was_free, free, inside, and_self, if_true]
    exact ok.goodWrites
  case goodReads => exact ok.goodReads

theorem publish (ok : RingOk capacity exec pending moved) :
    RingOk capacity
      (exec.publish ((exec.accepted.length + pending.length) % capacity.size) pending) [] moved := by
  constructor
  case writePos => simp [Execution.publish]
  case readPos => exact ok.readPos
  case fifo => exact ok.fifo.trans (List.prefix_append _ _)
  case room => simpa [Execution.publish] using ok.room
  case contents => simpa [Execution.publish] using ok.contents
  case cells =>
    refine fun n above below => ?_
    have before := ok.cells n above below
    simp only [Execution.publish, before, List.length_append, List.length_nil, cellState]
    split_ifs <;> first | rfl | omega | simp_all
  case goodWrites => exact ok.goodWrites
  case goodReads => exact ok.goodReads

theorem read (ok : RingOk capacity exec pending moved) (movedFrom : T → T)
    (unread : exec.returned.length + moved.length < exec.accepted.length) :
    RingOk capacity
      (exec.read capacity movedFrom
        ((exec.returned.length + moved.length) % capacity.size))
      pending
      (moved ++ [exec.buffer ((exec.returned.length + moved.length) % capacity.size)]) := by
  have room := ok.room
  have was_published := ok.cells (exec.returned.length + moved.length) (by omega) (by omega)
  have found := ok.contents (exec.returned.length + moved.length) (by omega) (by omega)
  simp only [List.getElem?_append_left unread, List.getElem?_eq_some_iff] at found
  obtain ⟨_, found⟩ := found
  constructor
  case writePos => exact ok.writePos
  case readPos => exact ok.readPos
  case fifo =>
    have longer := List.concat_get_prefix ok.fifo (by simpa using unread)
    simpa [Execution.read, found] using longer
  case room => exact ok.room
  case contents =>
    simp only [Execution.read, List.length_append, List.length_singleton, ← Nat.add_assoc]
    exact ok.contents.pop (by omega) _
  case cells =>
    simp only [Execution.read, List.length_append, List.length_singleton, ← Nat.add_assoc]
    rw [← Nat.add_mod_right]
    refine Ring.Window.update ⟨by omega, by omega⟩ (by omega) ?_ ?_
    next =>
      simp only [cellState]
      rw [if_neg (by omega), if_neg (by omega)]
    next =>
      intro n above below other
      exact ok.cells n (by omega) (by omega)
  case goodWrites => exact ok.goodWrites
  case goodReads =>
    have inside := Nat.mod_lt (exec.returned.length + moved.length)
      (show 0 < capacity.size by omega)
    have published : cellState exec.accepted.length pending.length
        (exec.returned.length + moved.length) = .published := by
      simp [cellState, unread]
    simp only [Execution.read, was_published, published, inside, and_self, if_true]
    exact ok.goodReads

theorem release (ok : RingOk capacity exec pending moved) :
    RingOk capacity
      (exec.release ((exec.returned.length + moved.length) % capacity.size) moved) pending [] := by
  constructor
  case writePos => exact ok.writePos
  case readPos => simp [Execution.release]
  case fifo => simpa [Execution.release] using ok.fifo
  case room =>
    have room := ok.room
    simp only [Execution.release, List.length_append]
    omega
  case contents => simpa [Execution.release] using ok.contents
  case cells => simpa [Execution.release] using ok.cells
  case goodWrites => exact ok.goodWrites
  case goodReads => exact ok.goodReads

end RingOk

-- What the producer has worked out at each point of a call, `published` items being published and
-- `seen` of them released when it last looked.
def Producer.Ok (capacity : Capacity) (published seen : Nat) : Producer T → Prop
  | .idle | .push _ | .pushBatch _ => True
  | .pushRefresh _ currentWrite | .pushBatchRefresh _ currentWrite =>
    currentWrite = published % capacity.size
  | .pushCopy _ currentWrite | .pushStore _ currentWrite =>
    currentWrite = published % capacity.size ∧ published + 1 < seen + capacity.size
  | .pushBatchCopy items currentWrite copied =>
    currentWrite = published % capacity.size ∧ published + items.length < seen + capacity.size ∧
      copied ≤ items.length

def Consumer.Ok (capacity : Capacity) (released seen : Nat) : Consumer T → Prop
  | .idle | .pop | .popBatch _ => True
  | .popRefresh currentRead | .popBatchRefresh _ currentRead =>
    currentRead = released % capacity.size
  | .popCopy currentRead | .popStore currentRead _ =>
    currentRead = released % capacity.size ∧ released < seen
  | .popBatchCopy currentRead count outputItems =>
    currentRead = released % capacity.size ∧ released + count ≤ seen ∧ outputItems.length ≤ count

-- The cached index is the released count of some earlier moment.
def ProducerOk (capacity : Capacity) (published released cachedReadPos : Nat)
    (producer : Producer T) : Prop :=
  ∃ seen ≤ released, published < seen + capacity.size ∧
    cachedReadPos = seen % capacity.size ∧ producer.Ok capacity published seen

def ConsumerOk (capacity : Capacity) (published released cachedWritePos : Nat)
    (consumer : Consumer T) : Prop :=
  ∃ seen ≤ published, released ≤ seen ∧
    cachedWritePos = seen % capacity.size ∧ consumer.Ok capacity released seen

theorem ProducerOk.mono {capacity : Capacity} {published released later cachedReadPos : Nat}
    {producer : Producer T} (ok : ProducerOk capacity published released cachedReadPos producer)
    (grown : released ≤ later) : ProducerOk capacity published later cachedReadPos producer := by
  obtain ⟨seen, stale, rest⟩ := ok
  exact ⟨seen, stale.trans grown, rest⟩

theorem ConsumerOk.mono {capacity : Capacity} {published later released cachedWritePos : Nat}
    {consumer : Consumer T} (ok : ConsumerOk capacity published released cachedWritePos consumer)
    (grown : published ≤ later) : ConsumerOk capacity later released cachedWritePos consumer := by
  obtain ⟨seen, stale, rest⟩ := ok
  exact ⟨seen, stale.trans grown, rest⟩

section Phases

variable {capacity : Capacity} {published released seen : Nat}

-- A full round ahead of what was seen is the one place where a push does not go on.
theorem push_room (order : seen ≤ published) (room : published < seen + capacity.size)
    (apart : capacity.wrap (published % capacity.size + 1) ≠ seen % capacity.size) :
    published + 1 < seen + capacity.size := by
  rw [capacity.wrap_index, Ne, Ring.next_eq_iff order room] at apart
  omega

theorem startBatchCopy_ok (items : List T) (order : seen ≤ published)
    (room : published < seen + capacity.size) :
    (Execution.startBatchCopy items (published % capacity.size)
      (capacity.freeSlots (seen % capacity.size) (published % capacity.size))).Ok
        capacity published seen := by
  rw [capacity.freeSlots_index order room, Execution.startBatchCopy]
  refine ⟨rfl, ?_, Nat.zero_le _⟩
  rw [List.length_take]
  omega

theorem startBatchMove_ok (maxItems : Nat) (order : released ≤ seen)
    (near : seen < released + capacity.size) :
    (Execution.startBatchMove (T := T) maxItems (released % capacity.size)
      (capacity.available (seen % capacity.size) (released % capacity.size))).Ok
        capacity released seen := by
  rw [capacity.available_index order near, Execution.startBatchMove]
  refine ⟨rfl, ?_, Nat.zero_le _⟩
  omega

end Phases

structure ExecutionOk (capacity : Capacity) (exec : Execution T) : Prop where
  ring : RingOk capacity exec exec.producer.pending exec.consumer.moved
  producer : ProducerOk capacity exec.accepted.length exec.returned.length exec.cachedReadPos
    exec.producer
  consumer : ConsumerOk capacity exec.accepted.length exec.returned.length exec.cachedWritePos
    exec.consumer

namespace ExecutionOk

variable {capacity : Capacity} {exec : Execution T}

theorem turnProducer (ok : ExecutionOk capacity exec) {cachedReadPos : Nat} {producer : Producer T}
    (same : producer.pending = exec.producer.pending)
    (next : ProducerOk capacity exec.accepted.length exec.returned.length cachedReadPos producer) :
    ExecutionOk capacity { exec with cachedReadPos, producer } := by
  have ring := ok.ring
  rw [← same] at ring
  exact ⟨{ ring with }, next, ok.consumer⟩

theorem turnConsumer (ok : ExecutionOk capacity exec) {cachedWritePos : Nat} {consumer : Consumer T}
    (same : consumer.moved = exec.consumer.moved)
    (next : ConsumerOk capacity exec.accepted.length exec.returned.length cachedWritePos consumer) :
    ExecutionOk capacity { exec with cachedWritePos, consumer } := by
  have ring := ok.ring
  rw [← same] at ring
  exact ⟨{ ring with }, ok.producer, next⟩

theorem write (ok : ExecutionOk capacity exec) (item : T) {producer : Producer T} {cell : Nat}
    (at_cell : cell =
      (exec.accepted.length + exec.producer.pending.length) % capacity.size)
    (room : exec.accepted.length + exec.producer.pending.length + 1 <
      exec.returned.length + capacity.size)
    (grown : producer.pending = exec.producer.pending ++ [item])
    (next : ProducerOk capacity exec.accepted.length exec.returned.length exec.cachedReadPos
      producer) :
    ExecutionOk capacity { exec.write capacity cell item with producer } := by
  have ring := ok.ring.write item room
  rw [← at_cell, ← grown] at ring
  exact ⟨{ ring with }, next, ok.consumer⟩

theorem publish (ok : ExecutionOk capacity exec) {items : List T} {newWrite seen : Nat}
    (at_cell : newWrite = (exec.accepted.length + items.length) % capacity.size)
    (complete : exec.producer.pending = items)
    (stale : seen ≤ exec.returned.length)
    (cached : exec.cachedReadPos = seen % capacity.size)
    (room : exec.accepted.length + items.length < seen + capacity.size) :
    ExecutionOk capacity { exec.publish newWrite items with producer := .idle } := by
  have ring := ok.ring
  rw [complete] at ring
  have published := ring.publish
  rw [← at_cell] at published
  refine ⟨{ published with }, ⟨seen, stale, ?_, cached, trivial⟩, ?_⟩
  next => simpa [Execution.publish] using room
  next => exact ok.consumer.mono (by simp [Execution.publish])

theorem read (ok : ExecutionOk capacity exec) (movedFrom : T → T) {consumer : Consumer T}
    {cell : Nat}
    (at_cell : cell =
      (exec.returned.length + exec.consumer.moved.length) % capacity.size)
    (unread : exec.returned.length + exec.consumer.moved.length < exec.accepted.length)
    (grown : consumer.moved = exec.consumer.moved ++ [exec.buffer cell])
    (next : ConsumerOk capacity exec.accepted.length exec.returned.length exec.cachedWritePos
      consumer) :
    ExecutionOk capacity { exec.read capacity movedFrom cell with consumer } := by
  have ring := ok.ring.read movedFrom unread
  rw [← at_cell, ← grown] at ring
  exact ⟨{ ring with }, ok.producer, next⟩

theorem release (ok : ExecutionOk capacity exec) {items : List T} {newRead seen : Nat}
    (at_cell : newRead = (exec.returned.length + items.length) % capacity.size)
    (complete : exec.consumer.moved = items)
    (stale : seen ≤ exec.accepted.length)
    (cached : exec.cachedWritePos = seen % capacity.size)
    (unread : exec.returned.length + items.length ≤ seen) :
    ExecutionOk capacity { exec.release newRead items with consumer := .idle } := by
  have ring := ok.ring
  rw [complete] at ring
  have released := ring.release
  rw [← at_cell] at released
  refine ⟨{ released with }, ?_, ⟨seen, stale, ?_, cached, trivial⟩⟩
  next => exact ok.producer.mono (by simp [Execution.release])
  next => simpa [Execution.release] using unread

theorem produceBatch (ok : ExecutionOk capacity exec) {items : List T} {currentWrite copied : Nat}
    (at_phase : exec.producer = .pushBatchCopy items currentWrite copied) :
    ExecutionOk capacity (exec.produce capacity) := by
  obtain ⟨seen, stale, room, cached, phase⟩ := ok.producer
  rw [at_phase] at phase
  obtain ⟨start, fits, within⟩ := phase
  have order := ok.ring.moved_le
  have pending : exec.producer.pending.length = copied := by
    rw [at_phase]
    exact List.length_take_of_le within
  simp only [Execution.produce, at_phase]
  cases element : items[copied]? with
  | some item =>
      obtain ⟨inside, -⟩ := List.getElem?_eq_some_iff.mp element
      refine ok.write item ?_ ?_ ?_ ⟨seen, stale, room, cached, start, fits, inside⟩
      next => rw [pending, start, Ring.chunkSlot_index inside (by omega)]
      next => omega
      next =>
        rw [at_phase, Producer.pending, List.take_add_one, element]
        rfl
  | none =>
      have done := List.getElem?_eq_none_iff.mp element
      refine ok.publish ?_ ?_ stale cached fits
      next => rw [start, capacity.wrap_index]
      next =>
        rw [at_phase]
        exact List.take_of_length_le done

theorem produce (ok : ExecutionOk capacity exec) : ExecutionOk capacity (exec.produce capacity) := by
  obtain ⟨seen, stale, room, cached, phase⟩ := ok.producer
  have order : exec.returned.length ≤ exec.accepted.length := by
    have := ok.ring.moved_le
    omega
  have ringRoom := ok.ring.room
  have writePos := ok.ring.writePos
  have readPos := ok.ring.readPos
  cases at_phase : exec.producer with
  | idle =>
      simp only [Execution.produce, at_phase]
      exact ok
  | push item =>
      simp only [Execution.produce, at_phase]
      refine ok.turnProducer ?_ ⟨seen, stale, room, cached, ?_⟩
      next => split <;> rw [at_phase] <;> rfl
      next =>
        split
        next => exact writePos
        next apart =>
          rw [writePos, cached] at apart
          exact ⟨writePos, push_room (by omega) room apart⟩
  | pushRefresh item currentWrite =>
      rw [at_phase] at phase
      simp only [Execution.produce, at_phase]
      refine ok.turnProducer ?_ ⟨exec.returned.length, Nat.le_refl _, by omega, readPos, ?_⟩
      next => split <;> rw [at_phase] <;> rfl
      next =>
        split
        next => trivial
        next apart =>
          rw [show currentWrite = _ from phase, readPos] at apart
          exact ⟨phase, push_room order (by omega) apart⟩
  | pushCopy item currentWrite =>
      rw [at_phase] at phase
      simp only [Execution.produce, at_phase]
      refine ok.write item ?_ ?_ ?_ ⟨seen, stale, room, cached, phase⟩
      next =>
        rw [at_phase]
        exact phase.1
      next =>
        rw [at_phase]
        exact Nat.lt_of_lt_of_le phase.2 (by omega)
      next =>
        rw [at_phase]
        rfl
  | pushStore item currentWrite =>
      rw [at_phase] at phase
      simp only [Execution.produce, at_phase]
      refine ok.publish ?_ (by rw [at_phase]; rfl) stale cached phase.2
      rw [phase.1, capacity.wrap_index]
      rfl
  | pushBatch items =>
      simp only [Execution.produce, at_phase]
      refine ok.turnProducer ?_ ⟨seen, stale, room, cached, ?_⟩
      next => split <;> rw [at_phase] <;> rfl
      next =>
        split
        next => exact writePos
        next =>
          rw [writePos, cached]
          exact startBatchCopy_ok items (by omega) room
  | pushBatchRefresh items currentWrite =>
      rw [at_phase] at phase
      simp only [Execution.produce, at_phase]
      refine ok.turnProducer ?_ ⟨exec.returned.length, Nat.le_refl _, by omega, readPos, ?_⟩
      next =>
        rw [at_phase]
        rfl
      next =>
        rw [show currentWrite = _ from phase, readPos]
        exact startBatchCopy_ok items order (by omega)
  | pushBatchCopy items currentWrite copied => exact ok.produceBatch at_phase

theorem consumeBatch (ok : ExecutionOk capacity exec) (movedFrom : T → T)
    {currentRead count : Nat} {outputItems : List T}
    (at_phase : exec.consumer = .popBatchCopy currentRead count outputItems) :
    ExecutionOk capacity (exec.consume capacity movedFrom) := by
  obtain ⟨seen, stale, order, cached, phase⟩ := ok.consumer
  rw [at_phase] at phase
  obtain ⟨start, fits, within⟩ := phase
  have room := ok.ring.room
  have moved : exec.consumer.moved = outputItems := by
    rw [at_phase]
    rfl
  simp only [Execution.consume, at_phase]
  by_cases inside : outputItems.length < count
  next =>
    rw [if_pos inside]
    refine ok.read movedFrom ?_ ?_ ?_ ⟨seen, stale, order, cached, start, fits, ?_⟩
    next => rw [moved, start, Ring.chunkSlot_index inside (by omega)]
    next =>
      rw [moved]
      omega
    next =>
      rw [moved]
      rfl
    next => simpa using Nat.succ_le_of_lt inside
  next =>
    rw [if_neg inside]
    have complete : outputItems.length = count := by omega
    refine ok.release ?_ moved stale cached (complete ▸ fits)
    rw [start, capacity.wrap_index, complete]

theorem consume (ok : ExecutionOk capacity exec) (movedFrom : T → T) :
    ExecutionOk capacity (exec.consume capacity movedFrom) := by
  obtain ⟨seen, stale, order, cached, phase⟩ := ok.consumer
  have ringOrder := ok.ring.moved_le
  have ringRoom := ok.ring.room
  have writePos := ok.ring.writePos
  have readPos := ok.ring.readPos
  cases at_phase : exec.consumer with
  | idle =>
      simp only [Execution.consume, at_phase]
      exact ok
  | pop =>
      simp only [Execution.consume, at_phase]
      refine ok.turnConsumer ?_ ⟨seen, stale, order, cached, ?_⟩
      next => split <;> rw [at_phase] <;> rfl
      next =>
        split
        next => exact readPos
        next apart =>
          rw [readPos, cached, Ring.index_eq_iff order (by omega)] at apart
          exact ⟨readPos, by omega⟩
  | popRefresh currentRead =>
      rw [at_phase] at phase
      simp only [Execution.consume, at_phase]
      refine ok.turnConsumer ?_ ⟨exec.accepted.length, Nat.le_refl _, by omega, writePos, ?_⟩
      next => split <;> rw [at_phase] <;> rfl
      next =>
        split
        next => trivial
        next apart =>
          rw [show currentRead = _ from phase, writePos,
            Ring.index_eq_iff (by omega) (by omega)] at apart
          exact ⟨phase, by omega⟩
  | popCopy currentRead =>
      rw [at_phase] at phase
      simp only [Execution.consume, at_phase]
      refine ok.read movedFrom ?_ ?_ ?_ ⟨seen, stale, order, cached, phase⟩
      next =>
        rw [at_phase]
        exact phase.1
      next =>
        rw [at_phase]
        exact Nat.lt_of_lt_of_le phase.2 stale
      next =>
        rw [at_phase]
        rfl
  | popStore currentRead item =>
      rw [at_phase] at phase
      simp only [Execution.consume, at_phase]
      refine ok.release ?_ (by rw [at_phase]; rfl) stale cached phase.2
      rw [phase.1, capacity.wrap_index]
      rfl
  | popBatch maxItems =>
      simp only [Execution.consume, at_phase]
      refine ok.turnConsumer ?_ ⟨seen, stale, order, cached, ?_⟩
      next => split <;> rw [at_phase] <;> rfl
      next =>
        split
        next => exact readPos
        next =>
          rw [readPos, cached]
          exact startBatchMove_ok maxItems order (by omega)
  | popBatchRefresh maxItems currentRead =>
      rw [at_phase] at phase
      simp only [Execution.consume, at_phase]
      refine ok.turnConsumer ?_ ⟨exec.accepted.length, Nat.le_refl _, by omega, writePos, ?_⟩
      next => split <;> rw [at_phase] <;> rfl
      next =>
        split
        next => trivial
        next =>
          rw [show currentRead = _ from phase, writePos]
          exact startBatchMove_ok maxItems (by omega) (by omega)
  | popBatchCopy currentRead count outputItems => exact ok.consumeBatch movedFrom at_phase

theorem enterPush (ok : ExecutionOk capacity exec) {call : Producer T}
    (fresh : call.pending = []) (free : ∀ published seen, call.Ok capacity published seen) :
    ExecutionOk capacity (exec.enterPush call) := by
  obtain ⟨seen, stale, room, cached, -⟩ := ok.producer
  unfold Execution.enterPush
  split
  next idle =>
    refine ok.turnProducer ?_ ⟨seen, stale, room, cached, free _ _⟩
    rw [idle, fresh]
    rfl
  next => exact ok

theorem enterPop (ok : ExecutionOk capacity exec) {call : Consumer T}
    (fresh : call.moved = []) (free : ∀ released seen, call.Ok capacity released seen) :
    ExecutionOk capacity (exec.enterPop call) := by
  obtain ⟨seen, stale, order, cached, -⟩ := ok.consumer
  unfold Execution.enterPop
  split
  next idle =>
    refine ok.turnConsumer ?_ ⟨seen, stale, order, cached, free _ _⟩
    rw [idle, fresh]
    rfl
  next => exact ok

theorem act (ok : ExecutionOk capacity exec) (movedFrom : T → T) (action : Action T) :
    ExecutionOk capacity (exec.act capacity movedFrom action) := by
  cases action with
  | push item => exact ok.enterPush rfl fun _ _ => trivial
  | pushBatch items => exact ok.enterPush rfl fun _ _ => trivial
  | produce => exact ok.produce
  | pop => exact ok.enterPop rfl fun _ _ => trivial
  | popBatch maxItems => exact ok.enterPop rfl fun _ _ => trivial
  | consume => exact ok.consume movedFrom

theorem start (cells : Nat → T) : ExecutionOk capacity { buffer := cells } := by
  have positive := Nat.lt_of_succ_lt capacity.atLeastTwo
  refine ⟨?_, ⟨0, Nat.le_refl _, ?_, rfl, trivial⟩, ⟨0, Nat.le_refl _, Nat.le_refl _, rfl, trivial⟩⟩
  next =>
    constructor
    case writePos => simp
    case readPos => simp
    case fifo => exact List.prefix_rfl
    case room => simpa [Producer.pending] using positive
    case contents => exact fun n _ below => absurd below (Nat.not_lt_zero n)
    case cells => exact fun n _ _ => rfl
    case goodWrites => rfl
    case goodReads => rfl
  next => simpa using positive

theorem run (movedFrom : T → T) (cells : Nat → T) (actions : List (Action T)) :
    ExecutionOk capacity (Execution.run capacity movedFrom cells actions) := by
  unfold Execution.run
  exact List.foldlRecOn actions _ (start cells) fun _ ok action _ => ok.act movedFrom action

end ExecutionOk

def Execution.unread (capacity : Capacity) (exec : Execution T) : List T :=
  let moved := exec.consumer.moved.length
  Slots.ring exec.buffer capacity.size (exec.readPos + moved) (exec.size capacity - moved)

theorem ExecutionOk.size_eq {capacity : Capacity} {exec : Execution T}
    (ok : ExecutionOk capacity exec) :
    exec.size capacity = exec.accepted.length - exec.returned.length := by
  have order := ok.ring.moved_le
  have room := ok.ring.room
  rw [SPSCQueue.size, ok.ring.writePos, ok.ring.readPos]
  exact capacity.available_index (by omega) (by omega)

theorem ExecutionOk.accepted_eq {capacity : Capacity} {exec : Execution T}
    (ok : ExecutionOk capacity exec) :
    exec.returned ++ exec.consumer.moved ++ exec.unread capacity = exec.accepted := by
  have order := ok.ring.moved_le
  have ahead : exec.unread capacity =
      exec.accepted.drop (exec.returned ++ exec.consumer.moved).length := by
    rw [Execution.unread, ok.size_eq, ok.ring.readPos, Slots.ring_mod_head, Nat.sub_sub,
      List.length_append]
    refine Ring.Window.ring_eq_drop fun n above below => ?_
    have found := ok.ring.contents n above (by omega)
    simpa only [List.getElem?_append_left below] using found
  rw [ahead]
  exact List.prefix_iff_eq_append.mp ok.ring.fifo

theorem ExecutionOk.returned_eq_of_empty {capacity : Capacity} {exec : Execution T}
    (ok : ExecutionOk capacity exec) (empty : exec.empty = true) :
    exec.returned = exec.accepted := by
  have whole : exec.returned <+: exec.accepted := (List.prefix_append _ _).trans ok.ring.fifo
  have same : exec.readPos = exec.writePos := of_decide_eq_true empty
  have size := ok.size_eq
  rw [SPSCQueue.size, same, Capacity.available, if_pos (Nat.le_refl _)] at size
  have order := whole.length_le
  exact whole.eq_of_length (by omega)

theorem run_lossless_fifo (capacity : Capacity) (movedFrom : T → T) (cells : Nat → T)
    (actions : List (Action T)) :
    let exec := Execution.run capacity movedFrom cells actions
    exec.returned <+: exec.accepted ∧
      exec.returned ++ exec.consumer.moved ++ exec.unread capacity = exec.accepted ∧
      exec.accepted.length - exec.returned.length ≤ capacity.size - 1 ∧
      exec.badWrites = [] ∧ exec.badReads = [] := by
  intro exec
  have ok : ExecutionOk capacity exec := ExecutionOk.run movedFrom cells actions
  have room := ok.ring.room
  refine ⟨?_, ok.accepted_eq, by omega, ok.ring.goodWrites, ok.ring.goodReads⟩
  exact (List.prefix_append _ _).trans ok.ring.fifo

example :
    (Execution.run ⟨4, by decide, by decide⟩ id (fun _ => 0)
      ([.pushBatch [1, 2, 3, 4, 5]] ++ List.replicate 6 .produce ++
        [.popBatch 2] ++ List.replicate 5 .consume ++
        [.push 6] ++ List.replicate 4 .produce ++
        [.popBatch 9] ++ List.replicate 5 .consume)).returned = [1, 2, 3] := by
  decide

end HftFixEngine.Common
