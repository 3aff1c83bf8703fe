import Mathlib.Data.List.InsertIdx
import Mathlib.Tactic.Common

set_option autoImplicit false

namespace SortedInsert

variable {α : Type} (precedes : α → α → Bool)

def upperBound (x : α) (xs : List α) : Nat := xs.findIdx (precedes x)

def insertUpper (x : α) (xs : List α) : List α := xs.insertIdx (upperBound precedes x xs) x

variable {precedes}

@[simp] theorem insertUpper_nil (x : α) : insertUpper precedes x [] = [x] := by
  simp [insertUpper, upperBound]

theorem insertUpper_cons (x y : α) (ys : List α) :
    insertUpper precedes x (y :: ys) =
      if precedes x y then x :: y :: ys else y :: insertUpper precedes x ys := by
  by_cases here : precedes x y = true <;>
    simp [insertUpper, upperBound, List.findIdx_cons, here]

theorem insertUpper_append (x : α) (xs ys : List α) (before : ∀ y ∈ xs, precedes x y = false)
    (after : ∀ y ∈ ys.head?, precedes x y = true) :
    insertUpper precedes x (xs ++ ys) = xs ++ x :: ys := by
  induction xs with
  | nil =>
      cases ys with
      | nil => simp
      | cons y ys => simp [insertUpper_cons, after y (by simp)]
  | cons z zs ih =>
      rw [List.cons_append, insertUpper_cons, before z (by simp)]
      simp [ih (fun y member => before y (List.mem_cons_of_mem z member))]

theorem insertUpper_map {β : Type} {precedesView : β → β → Bool} (f : α → β)
    (same : ∀ a b, precedesView (f a) (f b) = precedes a b) (x : α) (xs : List α) :
    insertUpper precedesView (f x) (xs.map f) = (insertUpper precedes x xs).map f := by
  induction xs with
  | nil => simp
  | cons y ys ih =>
      rw [List.map_cons, insertUpper_cons, insertUpper_cons, same, ih]
      split <;> rfl

theorem insertUpper_perm (x : α) (xs : List α) : (insertUpper precedes x xs).Perm (x :: xs) := by
  induction xs with
  | nil => simp
  | cons y ys ih =>
      rw [insertUpper_cons]
      split
      next => exact List.Perm.refl _
      next => exact (ih.cons y).trans (List.Perm.swap x y ys)

theorem mem_insertUpper {x y : α} {xs : List α} :
    y ∈ insertUpper precedes x xs ↔ y = x ∨ y ∈ xs := by
  rw [(insertUpper_perm x xs).mem_iff, List.mem_cons]

theorem pairwise_insertUpper {r : α → α → Prop} (x : α) (xs : List α) (sorted : xs.Pairwise r)
    (behind : ∀ y ∈ xs, precedes x y = false → r y x)
    (ahead : ∀ y ∈ xs, precedes x y = true → r x y)
    (onward : ∀ y z, r y z → precedes x y = true → r x z) :
    (insertUpper precedes x xs).Pairwise r := by
  induction xs with
  | nil => simp
  | cons y ys ih =>
      obtain ⟨first, rest⟩ := List.pairwise_cons.mp sorted
      rw [insertUpper_cons]
      by_cases here : precedes x y = true
      next =>
        rw [if_pos here, List.pairwise_cons]
        refine ⟨?_, sorted⟩
        intro z member
        rcases List.mem_cons.mp member with rfl | later
        next => exact ahead z (by simp) here
        next => exact onward y z (first z later) here
      next =>
        rw [if_neg here, List.pairwise_cons]
        refine ⟨?_, ih rest (fun z member => behind z (List.mem_cons_of_mem y member))
          (fun z member => ahead z (List.mem_cons_of_mem y member))⟩
        intro z member
        rcases mem_insertUpper.mp member with rfl | old
        next => exact behind y (by simp) (by simpa using here)
        next => exact first z old

theorem insertUpper_split (x : α) (xs : List α)
    (closed : xs.Pairwise fun a b => precedes x a = true → precedes x b = true) :
    ∃ ahead behind, xs = ahead ++ behind ∧ insertUpper precedes x xs = ahead ++ x :: behind ∧
      (∀ y ∈ ahead, precedes x y = false) ∧ ∀ y ∈ behind, precedes x y = true := by
  induction xs with
  | nil => exact ⟨[], [], rfl, by simp, by simp, by simp⟩
  | cons y ys ih =>
      obtain ⟨first, rest⟩ := List.pairwise_cons.mp closed
      rw [insertUpper_cons]
      cases here : precedes x y with
      | true =>
          refine ⟨[], y :: ys, rfl, rfl, by simp, ?_⟩
          intro z member
          rcases List.mem_cons.mp member with rfl | later
          next => exact here
          next => exact first z later here
      | false =>
          obtain ⟨ahead, behind, parts, inserted, before, after⟩ := ih rest
          refine ⟨y :: ahead, behind, by rw [parts]; rfl, by simp [inserted], ?_, after⟩
          exact List.forall_mem_cons.mpr ⟨here, before⟩

end SortedInsert
