import HftFixEngine.Protocol.ReorderInOrder

set_option autoImplicit false

namespace HftFixEngine.Protocol

open Word SequenceReorderBuffer

namespace SequenceReorderBuffer

def occupiedCount (capacity : Nat) (ring : Nat → ReorderSlot) : Nat :=
  (Slots.first ring capacity).countP ReorderSlot.occupied

end SequenceReorderBuffer

namespace Reordering

def accounted (capacity : Nat) (state : Reordering) : Nat :=
  state.outEmitted.length + occupiedCount capacity state.buffer.ring +
    state.buffer.duplicatesCount + state.buffer.overflowCount

end Reordering

section Drain

variable {capacity : Nat} (powerOfTwo : capacity.isPowerOfTwo)

include powerOfTwo

structure Moved (capacity : Nat) (start drain : Drain) : Prop where
  packets : drain.outEmitted.length + occupiedCount capacity drain.buffer.ring =
    start.outEmitted.length + occupiedCount capacity start.buffer.ring
  duplicatesCount : drain.buffer.duplicatesCount = start.buffer.duplicatesCount
  overflowCount : drain.buffer.overflowCount = start.buffer.overflowCount

theorem occupiedCount_update (ring : Nat → ReorderSlot) (seqNum : Nat) (slot : ReorderSlot) :
    occupiedCount capacity (Function.update ring (index capacity seqNum) slot) +
        (if (ring (index capacity seqNum)).occupied then 1 else 0) =
      occupiedCount capacity ring + if slot.occupied then 1 else 0 :=
  Slots.countP_first_set ReorderSlot.occupied ring (index_lt powerOfTwo seqNum) slot

theorem drainBuffered_moved (buffer : SequenceReorderBuffer) (outEmitted : List Bytes) :
    Moved capacity { buffer, outEmitted } (buffer.drainBuffered capacity outEmitted) := by
  refine Loop.run_invariant (Moved capacity { buffer, outEmitted }) ?_ capacity ⟨rfl, rfl, rfl⟩
  intro drain so_far due
  obtain ⟨occupied, -⟩ := waiting_eq_some.mp (slotDue_iff.mp due)
  refine ⟨?_, so_far.duplicatesCount, so_far.overflowCount⟩
  have packets := so_far.packets
  have emptied := occupiedCount_update powerOfTwo drain.buffer.ring drain.buffer.expectedSeq
    { drain.buffer.ring (index capacity drain.buffer.expectedSeq) with occupied := false }
  simp only [occupied, if_true, Bool.false_eq_true, if_false] at emptied packets
  simp only [drainSlot, List.length_append, List.length_singleton]
  omega

end Drain

section Push

variable {capacity : Nat} (powerOfTwo : capacity.isPowerOfTwo) {buffer : SequenceReorderBuffer}
  (ok : BufferOk capacity buffer)

include powerOfTwo ok

theorem waiting_outside {seqNum : Nat}
    (outside : seqNum ≤ buffer.expectedSeq ∨ buffer.expectedSeq + capacity ≤ seqNum) :
    waiting capacity buffer.ring seqNum = none := by
  rw [Option.eq_none_iff_forall_ne_some]
  intro bytes found
  have bounds := SlotsOk.waiting_bounds powerOfTwo ok found
  omega

theorem occupied_eq_waiting {seqNum : Nat} (ahead : buffer.expectedSeq < seqNum)
    (inside : seqNum < buffer.expectedSeq + capacity) :
    (buffer.ring (index capacity seqNum)).occupied =
      (waiting capacity buffer.ring seqNum).isSome := by
  cases taken : (buffer.ring (index capacity seqNum)).occupied with
  | false => simp [waiting, taken]
  | true =>
      obtain ⟨own, least, most⟩ := ok _ (index_lt powerOfTwo seqNum) taken
      rw [index_eq_mod powerOfTwo] at own least most
      have same := Ring.index_inj (buffer.expectedSeq + 1) ⟨least, by omega⟩ ⟨ahead, by omega⟩ own
      rw [← index_eq_mod powerOfTwo] at same
      simp [waiting, taken, same]

end Push

-- A packet is repeated when it arrives while an earlier copy of it waits.
def repeats (capacity : Nat) (state : Reordering) (call : PushCall) : Bool :=
  (waiting capacity state.buffer.ring call.seqNum).isSome

theorem push_accounted {capacity : Nat} (powerOfTwo : capacity.isPowerOfTwo) {state : Reordering}
    (ok : BufferOk capacity state.buffer)
    (noWrap : state.buffer.expectedSeq + capacity < 2 ^ 64)
    (few : state.accounted capacity + 1 < 2 ^ 64) {call : PushCall} {bytes : Bytes}
    (carries : call.Carries bytes) :
    (state.push capacity call).accounted capacity =
      state.accounted capacity + if repeats capacity state call then 0 else 1 := by
  obtain ⟨payload, len, positive, short⟩ := carries
  have window : u64 (state.buffer.expectedSeq + capacity) = state.buffer.expectedSeq + capacity :=
    Nat.mod_eq_of_lt noWrap
  simp only [Reordering.accounted] at few
  simp only [Reordering.push, SequenceReorderBuffer.push, payload, len, window, positive, if_true,
    List.take_length]
  split
  next turn =>
    have fresh : repeats capacity state call = false := by
      rw [repeats, waiting_outside powerOfTwo ok (Or.inl (by omega)), Option.isSome_none]
    have moved := drainBuffered_moved powerOfTwo
      { state.buffer with expectedSeq := u64 (state.buffer.expectedSeq + 1) }
      (state.outEmitted ++ [bytes])
    have packets := moved.packets
    simp only [List.length_append, List.length_singleton] at packets
    simp only [Reordering.accounted, moved.duplicatesCount, moved.overflowCount, fresh,
      Bool.false_eq_true, if_false]
    omega
  next =>
    split
    next =>
      split
      next ahead inside =>
        have stored := occupiedCount_update powerOfTwo state.buffer.ring call.seqNum
          ((state.buffer.ring (index capacity call.seqNum)).store call.seqNum (some bytes)
            bytes.length)
        have same : (state.buffer.ring (index capacity call.seqNum)).occupied =
            repeats capacity state call := occupied_eq_waiting powerOfTwo ok ahead inside
        simp only [same, ReorderSlot.store, if_true] at stored
        simp only [Reordering.accounted, ReorderSlot.store]
        cases again : repeats capacity state call with
        | true =>
            simp only [again, if_true] at stored ⊢
            omega
        | false =>
            simp only [again, Bool.false_eq_true, if_false] at stored ⊢
            omega
      next beyond =>
        have fresh : repeats capacity state call = false := by
          rw [repeats, waiting_outside powerOfTwo ok (Or.inr (by omega)), Option.isSome_none]
        have counted : u64 (state.buffer.overflowCount + 1) = state.buffer.overflowCount + 1 :=
          Nat.mod_eq_of_lt (by omega)
        simp only [Reordering.accounted, counted, fresh, Bool.false_eq_true, if_false]
        omega
    next other late =>
      have fresh : repeats capacity state call = false := by
        rw [repeats, waiting_outside powerOfTwo ok (Or.inl (by omega)), Option.isSome_none]
      have counted : u64 (state.buffer.duplicatesCount + 1) = state.buffer.duplicatesCount + 1 :=
        Nat.mod_eq_of_lt (by omega)
      simp only [Reordering.accounted, counted, fresh, Bool.false_eq_true, if_false]
      omega

def NoRepeat (capacity initialExpected : Nat) (calls : List PushCall) : Prop :=
  ∀ before call, before ++ [call] <+: calls →
    repeats capacity (Reordering.run capacity initialExpected before) call = false

structure Accounted (capacity initialExpected : Nat) (calls : List PushCall) : Prop where
  balance : calls.length = (Reordering.run capacity initialExpected calls).accounted capacity
  secondCopy : ∀ before call text, before ++ [call] <+: calls →
    let first := Reordering.run capacity initialExpected before
    let second := Reordering.run capacity initialExpected (before ++ [call])
    waiting capacity first.buffer.ring call.seqNum = some text →
      second.buffer.duplicatesCount = first.buffer.duplicatesCount + 1 ∧
        waiting capacity second.buffer.ring call.seqNum = some text

section Run

variable {capacity initialExpected : Nat}

theorem noRepeat_append {calls : List PushCall} {call : PushCall} :
    NoRepeat capacity initialExpected (calls ++ [call]) ↔
      NoRepeat capacity initialExpected calls ∧
        repeats capacity (Reordering.run capacity initialExpected calls) call = false := by
  constructor
  next =>
    intro none
    exact ⟨fun before other early => none before other (early.trans (List.prefix_append _ _)),
      none calls call List.prefix_rfl⟩
  next =>
    rintro ⟨earlier, last⟩ before other early
    rcases List.prefix_concat_iff.mp early with whole | inside
    next =>
      obtain ⟨rfl, same⟩ := List.append_inj' whole rfl
      obtain rfl := List.singleton_inj.mp same
      exact last
    next => exact earlier before other inside

theorem run_accounted (powerOfTwo : capacity.isPowerOfTwo) (calls : List PushCall)
    (carries : ∀ call ∈ calls, ∃ bytes, call.Carries bytes)
    (noWrap : NoWrap capacity initialExpected calls) (few : calls.length < 2 ^ 64) :
    (Reordering.run capacity initialExpected calls).accounted capacity ≤ calls.length ∧
      ((Reordering.run capacity initialExpected calls).accounted capacity = calls.length ↔
        NoRepeat capacity initialExpected calls) := by
  induction calls using List.reverseRecOn with
  | nil =>
      have empty : (Reordering.run capacity initialExpected []).accounted capacity = 0 := by
        simp [Reordering.accounted, Reordering.run, occupiedCount, Slots.first]
      simp [empty, NoRepeat]
  | append_singleton calls call ih =>
      have earlier : ∀ other ∈ calls, ∃ bytes, other.Carries bytes :=
        fun other member => carries other (List.mem_append_left _ member)
      rw [List.length_append, List.length_singleton] at few
      obtain ⟨bounded, exact_iff⟩ := ih earlier noWrap.of_append (by omega)
      obtain ⟨bytes, brings⟩ := carries call (by simp)
      have step := push_accounted powerOfTwo
        (run_reorderingOk powerOfTwo earlier noWrap.of_append).buffer
        (noWrap calls (List.prefix_append _ _)) (by omega) brings
      rw [Reordering.run_append, noRepeat_append, ← exact_iff, step, List.length_append,
        List.length_singleton]
      cases repeats capacity (Reordering.run capacity initialExpected calls) call with
      | true => simp; omega
      | false => simp; omega

theorem accounted_iff (powerOfTwo : capacity.isPowerOfTwo) (calls : List PushCall)
    (carries : ∀ call ∈ calls, ∃ bytes, call.Carries bytes)
    (noWrap : NoWrap capacity initialExpected calls) (few : calls.length < 2 ^ 64) :
    Accounted capacity initialExpected calls ↔ NoRepeat capacity initialExpected calls := by
  obtain ⟨-, exact_iff⟩ := run_accounted powerOfTwo calls carries noWrap few
  constructor
  next =>
    intro accounted
    exact exact_iff.mp accounted.balance.symm
  next =>
    intro none
    refine ⟨(exact_iff.mpr none).symm, ?_⟩
    intro before call text early first second found
    have absent := none before call early
    rw [repeats, found] at absent
    cases absent

end Run

theorem accounted_iff_threeShuffled : Accounted 4 1 threeShuffled := by
  refine (accounted_iff ⟨2, rfl⟩ threeShuffled threeShuffled_carries threeShuffled_noWrap
    (by decide)).mpr ?_
  intro before call early
  have all : ∀ arrived ∈ threeShuffled.inits, ∀ call ∈ arrived.getLast?,
      repeats 4 (Reordering.run 4 1 arrived.dropLast) call = false := by decide
  have last := all _ ((List.mem_inits _ _).mpr early) call (by simp)
  simpa using last

def twoCopies : List PushCall := [.ofBytes 3 [65], .ofBytes 3 [66]]

theorem accounted_broken_twoCopies :
    twoCopies.length = 2 ∧ (Reordering.run 4 1 twoCopies).accounted 4 = 1 ∧
      ¬ Accounted 4 1 twoCopies := by
  refine ⟨rfl, by decide, ?_⟩
  intro accounted
  have balance := accounted.balance
  revert balance
  decide

end HftFixEngine.Protocol
