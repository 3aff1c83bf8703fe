import HftFixEngine.Protocol.SequenceReorderBuffer

set_option autoImplicit false

namespace HftFixEngine.Protocol

namespace SequenceReorderBuffer

variable {capacity : Nat}

def waiting (capacity : Nat) (ring : Nat → ReorderSlot) (seqNum : Nat) : Option Bytes :=
  let slot := ring (index capacity seqNum)
  if slot.occupied && decide (slot.seqNum = seqNum) then some slot.text else none

-- Occupied slots are in the cell of their number and their numbers in `[low, high)`.
def SlotsOk (capacity low high : Nat) (ring : Nat → ReorderSlot) : Prop :=
  ∀ i < capacity, (ring i).occupied = true →
    (ring i).seqNum % capacity = i ∧ low ≤ (ring i).seqNum ∧ (ring i).seqNum < high

theorem index_eq_mod (powerOfTwo : capacity.isPowerOfTwo) (seqNum : Nat) :
    index capacity seqNum = seqNum % capacity := by
  obtain ⟨exponent, rfl⟩ := powerOfTwo
  exact Nat.and_two_pow_sub_one_eq_mod seqNum exponent

theorem waiting_eq_some {ring : Nat → ReorderSlot} {seqNum : Nat} {bytes : Bytes} :
    waiting capacity ring seqNum = some bytes ↔
      (ring (index capacity seqNum)).occupied = true ∧
        (ring (index capacity seqNum)).seqNum = seqNum ∧
        (ring (index capacity seqNum)).text = bytes := by
  simp [waiting, and_assoc]

theorem slotDue_iff {drain : Drain} :
    slotDue capacity drain = true ↔
      waiting capacity drain.buffer.ring drain.buffer.expectedSeq =
        some (drain.buffer.ring (index capacity drain.buffer.expectedSeq)).text := by
  simp [slotDue, waiting]

section Ring

variable {low high : Nat} {ring : Nat → ReorderSlot}

variable (powerOfTwo : capacity.isPowerOfTwo)

include powerOfTwo

theorem index_lt (seqNum : Nat) : index capacity seqNum < capacity := by
  rw [index_eq_mod powerOfTwo]
  exact Nat.mod_lt _ (Nat.pos_of_isPowerOfTwo powerOfTwo)

theorem SlotsOk.waiting_bounds (ok : SlotsOk capacity low high ring) {seqNum : Nat} {bytes : Bytes}
    (found : waiting capacity ring seqNum = some bytes) : low ≤ seqNum ∧ seqNum < high := by
  obtain ⟨occupied, number, -⟩ := waiting_eq_some.mp found
  have bounds := (ok _ (index_lt powerOfTwo seqNum) occupied).2
  rwa [number] at bounds

theorem waiting_update (short : high ≤ low + capacity) (ok : SlotsOk capacity low high ring)
    {seqNum : Nat} (inside : low ≤ seqNum ∧ seqNum < high) {slot : ReorderSlot}
    (number : slot.seqNum = seqNum) :
    waiting capacity (Function.update ring (index capacity seqNum) slot) =
      Function.update (waiting capacity ring) seqNum
        (if slot.occupied then some slot.text else none) := by
  funext other
  by_cases same : other = seqNum
  next =>
    subst same
    simp [waiting, number]
  next =>
    rw [Function.update_of_ne same]
    by_cases meet : index capacity other = index capacity seqNum
    next =>
      have absent : waiting capacity ring other = none := by
        rw [Option.eq_none_iff_forall_ne_some]
        intro bytes found
        have bounds := ok.waiting_bounds powerOfTwo found
        rw [index_eq_mod powerOfTwo, index_eq_mod powerOfTwo] at meet
        exact same (Ring.index_inj low ⟨bounds.1, by omega⟩ ⟨inside.1, by omega⟩ meet)
      rw [absent, waiting, meet, Function.update_self]
      simp [number, Ne.symm same]
    next => simp only [waiting, Function.update_of_ne meet]

theorem SlotsOk.store (ok : SlotsOk capacity low high ring) {seqNum : Nat}
    (inside : low ≤ seqNum ∧ seqNum < high) {slot : ReorderSlot} (number : slot.seqNum = seqNum) :
    SlotsOk capacity low high (Function.update ring (index capacity seqNum) slot) := by
  intro i within occupied
  by_cases same : i = index capacity seqNum
  next =>
    subst same
    rw [Function.update_self, number]
    exact ⟨(index_eq_mod powerOfTwo seqNum).symm, inside⟩
  next =>
    rw [Function.update_of_ne same] at occupied ⊢
    exact ok i within occupied

theorem SlotsOk.clear (ok : SlotsOk capacity low high ring) {slot : ReorderSlot}
    (free : slot.occupied = false) :
    SlotsOk capacity (low + 1) high (Function.update ring (index capacity low) slot) := by
  intro i within occupied
  by_cases same : i = index capacity low
  next =>
    subst same
    rw [Function.update_self, free] at occupied
    cases occupied
  next =>
    rw [Function.update_of_ne same] at occupied ⊢
    obtain ⟨own, least, most⟩ := ok i within occupied
    refine ⟨own, ?_, most⟩
    have other : (ring i).seqNum ≠ low := by
      intro lowest
      rw [lowest] at own
      exact same (own.symm.trans (index_eq_mod powerOfTwo low).symm)
    omega

end Ring

end SequenceReorderBuffer

def Numbered (belongs : Nat → Bytes → Prop) (first : Nat) (out : List Bytes) : Prop :=
  ∀ i bytes, out[i]? = some bytes → belongs (first + i) bytes

namespace Numbered

variable {belongs belongs' : Nat → Bytes → Prop} {first : Nat} {out : List Bytes}

theorem nil : Numbered belongs first [] := fun i bytes found => by simp at found

theorem append {more : List Bytes} (left : Numbered belongs first out)
    (right : Numbered belongs (first + out.length) more) :
    Numbered belongs first (out ++ more) := by
  intro i bytes found
  by_cases inside : i < out.length
  next =>
    rw [List.getElem?_append_left inside] at found
    exact left i bytes found
  next =>
    rw [List.getElem?_append_right (by omega)] at found
    have := right _ _ found
    rwa [Nat.add_assoc, Nat.add_sub_cancel' (by omega)] at this

theorem singleton {bytes : Bytes} (own : belongs first bytes) : Numbered belongs first [bytes] := by
  intro i other found
  obtain ⟨rfl, rfl⟩ : i = 0 ∧ bytes = other := by
    cases i <;> simp_all
  exact own

theorem imp (numbered : Numbered belongs first out)
    (weaker : ∀ n bytes, belongs n bytes → belongs' n bytes) : Numbered belongs' first out :=
  fun i bytes found => weaker _ _ (numbered i bytes found)

end Numbered

end HftFixEngine.Protocol
