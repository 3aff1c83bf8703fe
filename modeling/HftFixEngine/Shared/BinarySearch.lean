import HftFixEngine.Shared.Loop

set_option autoImplicit false

namespace BinarySearch

structure Bounds where
  low : Nat
  high : Nat
  found : Option Nat

variable (probe : Nat → Ordering)

def searching (bounds : Bounds) : Bool := bounds.found.isNone && decide (bounds.low < bounds.high)

def narrow (bounds : Bounds) : Bounds :=
  let mid := bounds.low + (bounds.high - bounds.low) / 2
  match probe mid with
  | .eq => { bounds with found := some mid }
  | .lt => { bounds with high := mid }
  | .gt => { bounds with low := mid + 1 }

def search (count : Nat) : Bounds :=
  Loop.run searching (narrow probe) (count + 1) ⟨0, count, none⟩

structure Sorted (count : Nat) : Prop where
  onward : ∀ i j, i ≤ j → j < count → probe i = .lt → probe j = .lt
  backward : ∀ i j, i ≤ j → j < count → probe j = .gt → probe i = .gt

structure Between (count : Nat) (bounds : Bounds) : Prop where
  ordered : bounds.low ≤ bounds.high
  inside : bounds.high ≤ count
  below : ∀ i < bounds.low, probe i = .gt
  above : ∀ i, bounds.high ≤ i → i < count → probe i = .lt
  hit : ∀ mid ∈ bounds.found, mid < count ∧ probe mid = .eq

variable {probe} {count : Nat}

theorem searching_iff (bounds : Bounds) :
    searching bounds = true ↔ bounds.found = none ∧ bounds.low < bounds.high := by
  simp [searching]

theorem narrow_between (sorted : Sorted probe count) (bounds : Bounds)
    (between : Between probe count bounds) (going : searching bounds = true) :
    Between probe count (narrow probe bounds) := by
  obtain ⟨missing, apart⟩ := (searching_iff bounds).mp going
  have inside := between.inside
  cases result : probe (bounds.low + (bounds.high - bounds.low) / 2) with
  | eq =>
      simp only [narrow, result]
      refine ⟨between.ordered, inside, between.below, between.above, ?_⟩
      intro mid member
      obtain rfl : bounds.low + (bounds.high - bounds.low) / 2 = mid := by simpa using member
      exact ⟨by omega, result⟩
  | lt =>
      simp only [narrow, result]
      refine ⟨Nat.le_add_right _ _, ?_, between.below, ?_, by simp [missing]⟩
      next =>
        change bounds.low + (bounds.high - bounds.low) / 2 ≤ count
        omega
      next =>
        intro i least within
        exact sorted.onward _ i least within result
  | gt =>
      simp only [narrow, result]
      refine ⟨?_, inside, ?_, between.above, by simp [missing]⟩
      next =>
        change bounds.low + (bounds.high - bounds.low) / 2 + 1 ≤ bounds.high
        omega
      next =>
        intro i less
        exact sorted.backward i _ (Nat.le_of_lt_succ less) (by omega) result

-- A bound on the rounds left, zero once the key is found.
def width (bounds : Bounds) : Nat :=
  if bounds.found.isSome then 0 else bounds.high - bounds.low + 1

theorem narrow_width (bounds : Bounds) (going : searching bounds = true) :
    width (narrow probe bounds) < width bounds := by
  obtain ⟨missing, apart⟩ := (searching_iff bounds).mp going
  cases result : probe (bounds.low + (bounds.high - bounds.low) / 2) <;>
    simp [narrow, result, width, missing] <;> omega

theorem search_spec (sorted : Sorted probe count) :
    match (search probe count).found with
    | some mid => mid < count ∧ probe mid = .eq
    | none => (search probe count).low ≤ count ∧
        (∀ i < (search probe count).low, probe i = .gt) ∧
        (∀ i, (search probe count).low ≤ i → i < count → probe i = .lt) := by
  have start : Between probe count ⟨0, count, none⟩ :=
    ⟨Nat.zero_le _, Nat.le_refl _, by simp, by simp only; omega, by simp⟩
  have final : Between probe count (search probe count) :=
    Loop.run_invariant (Between probe count) (narrow_between sorted) (count + 1) start
  have done : searching (search probe count) = false :=
    Loop.run_exits (Between probe count) width (narrow_between sorted)
      (fun bounds _ going => narrow_width bounds going) (count + 1) start (by simp [width])
  cases result : (search probe count).found with
  | some mid => exact final.hit mid result
  | none =>
      have closed : (search probe count).high ≤ (search probe count).low := by
        simpa [searching, result] using done
      have inside := final.inside
      have ordered := final.ordered
      refine ⟨by omega, final.below, ?_⟩
      intro i least within
      exact final.above i (by omega) within

end BinarySearch
