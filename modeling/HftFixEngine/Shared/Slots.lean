import Mathlib.Data.List.Basic
import Mathlib.Data.List.Range
import Mathlib.Data.Nat.ModEq
import Mathlib.Logic.Function.Basic
import Mathlib.Tactic.Common

set_option autoImplicit false

namespace Slots

variable {α β : Type}

def first (cells : Nat → α) (n : Nat) : List α := (List.range n).map cells

def ring (cells : Nat → α) (cap head n : Nat) : List α :=
  (List.range n).map fun k => cells ((head + k) % cap)

@[simp] theorem first_length (cells : Nat → α) (n : Nat) : (first cells n).length = n := by
  simp [first]

@[simp] theorem ring_length (cells : Nat → α) (cap head n : Nat) :
    (ring cells cap head n).length = n := by
  simp [ring]

@[simp] theorem first_zero (cells : Nat → α) : first cells 0 = [] := rfl

@[simp] theorem ring_zero (cells : Nat → α) (cap head : Nat) : ring cells cap head 0 = [] := rfl

@[simp] theorem first_getElem (cells : Nat → α) (n i : Nat) (within : i < (first cells n).length) :
    (first cells n)[i] = cells i := by
  simp [first]

theorem first_map (f : α → β) (cells : Nat → α) (n : Nat) :
    (first cells n).map f = first (f ∘ cells) n := by
  simp [first]

theorem first_succ (cells : Nat → α) (n : Nat) :
    first cells (n + 1) = first cells n ++ [cells n] := by
  simp [first, List.range_succ]

theorem first_cons (cells : Nat → α) (n : Nat) :
    first cells (n + 1) = cells 0 :: first (fun i => cells (i + 1)) n := by
  simp [first, List.range_succ_eq_map, Function.comp_def]

theorem mem_take_first {cells : Nat → α} {n pos : Nat} {x : α}
    (member : x ∈ (first cells n).take pos) : ∃ i < pos, cells i = x := by
  obtain ⟨i, within, found⟩ := List.mem_iff_getElem.mp member
  simp only [List.length_take, first_length] at within
  exact ⟨i, by omega, by simpa [first] using found⟩

theorem mem_drop_first {cells : Nat → α} {n pos : Nat} {x : α}
    (member : x ∈ (first cells n).drop pos) : ∃ i, pos ≤ i ∧ i < n ∧ cells i = x := by
  obtain ⟨i, within, found⟩ := List.mem_iff_getElem.mp member
  simp only [List.length_drop, first_length] at within
  exact ⟨pos + i, by omega, by omega, by simpa [first] using found⟩

theorem first_split (cells : Nat → α) {n pos : Nat} (within : pos < n) :
    first cells n = (first cells n).take pos ++ cells pos :: (first cells n).drop (pos + 1) := by
  have inside : pos < (first cells n).length := by simpa using within
  have split := List.take_append_drop pos (first cells n)
  rw [List.drop_eq_getElem_cons inside, first_getElem] at split
  exact split.symm

theorem first_congr {cells other : Nat → α} {n : Nat} (same : ∀ i < n, cells i = other i) :
    first cells n = first other n := by
  apply List.map_congr_left
  intro i member
  exact same i (List.mem_range.mp member)

theorem first_update_of_le (cells : Nat → α) {n i : Nat} (outside : n ≤ i) (x : α) :
    first (Function.update cells i x) n = first cells n := by
  apply first_congr
  intro j within
  exact Function.update_of_ne (by omega) _ _

theorem first_push (cells : Nat → α) (n : Nat) (x : α) :
    first (Function.update cells n x) (n + 1) = first cells n ++ [x] := by
  rw [first_succ, first_update_of_le cells (Nat.le_refl n) x, Function.update_self]

theorem first_set (cells : Nat → α) {n pos : Nat} (within : pos < n) (x : α) :
    first (Function.update cells pos x) n =
      (first cells n).take pos ++ x :: (first cells n).drop (pos + 1) := by
  apply List.ext_getElem
  next =>
    simp only [first_length, List.length_append, List.length_take, List.length_cons,
      List.length_drop]
    omega
  next =>
    intro i left right
    simp only [first_getElem, Function.update_apply, List.getElem_append, List.length_take,
      first_length, List.getElem_take, List.getElem_cons, List.getElem_drop,
      Nat.min_eq_left (Nat.le_of_lt within)]
    split_ifs <;> first | rfl | omega | (congr 1; omega)

theorem countP_first_set (holds : α → Bool) (cells : Nat → α) {n pos : Nat} (within : pos < n)
    (x : α) :
    (first (Function.update cells pos x) n).countP holds + (if holds (cells pos) then 1 else 0) =
      (first cells n).countP holds + if holds x then 1 else 0 := by
  have old := congrArg (List.countP holds) (first_split cells within)
  rw [List.countP_append, List.countP_cons] at old
  rw [first_set cells within, List.countP_append, List.countP_cons, old]
  omega

def overwrite (cells : Nat → α) (xs : List α) : Nat → α := fun i => xs[i]?.getD (cells i)

theorem first_overwrite (cells : Nat → α) (xs : List α) :
    first (overwrite cells xs) xs.length = xs := by
  apply List.ext_getElem
  next => simp
  next =>
    intro i _ inside
    simp [overwrite, inside]

def copyTo (cells : Nat → α) (start : Nat) : List α → Nat → α
  | [] => cells
  | x :: xs => copyTo (Function.update cells start x) (start + 1) xs

def moveFrom (left : α → α) (cells : Nat → α) (start : Nat) : Nat → List α × (Nat → α)
  | 0 => ([], cells)
  | n + 1 =>
    let later := moveFrom left (Function.update cells start (left (cells start))) (start + 1) n
    (cells start :: later.1, later.2)

-- `for (l = 0; l < n; ++l) cells[l] = cells[l + 1];`
def shiftLeft (cells : Nat → α) : Nat → Nat → α
  | 0 => cells
  | n + 1 => Function.update (shiftLeft cells n) n (shiftLeft cells n (n + 1))

theorem shiftLeft_apply (cells : Nat → α) (n i : Nat) :
    shiftLeft cells n i = if i < n then cells (i + 1) else cells i := by
  induction n generalizing i with
  | zero => simp [shiftLeft]
  | succ n ih =>
      simp only [shiftLeft, Function.update_apply, ih]
      split_ifs <;> first | omega | simp_all

theorem first_shiftLeft (cells : Nat → α) (n : Nat) :
    first (shiftLeft cells n) n = (first cells (n + 1)).tail := by
  rw [first_cons, List.tail_cons]
  apply first_congr
  intro i within
  rw [shiftLeft_apply, if_pos within]

-- `for (j = pos + n; j > pos; --j) cells[j] = cells[j - 1];`
def shiftRight (cells : Nat → α) (pos : Nat) : Nat → Nat → α
  | 0 => cells
  | n + 1 => shiftRight (Function.update cells (pos + n + 1) (cells (pos + n))) pos n

theorem shiftRight_apply (cells : Nat → α) (pos n i : Nat) :
    shiftRight cells pos n i = if pos < i ∧ i ≤ pos + n then cells (i - 1) else cells i := by
  induction n generalizing cells i with
  | zero => simp only [shiftRight]; split_ifs <;> first | rfl | omega
  | succ n ih =>
      simp only [shiftRight, ih, Function.update_apply]
      split_ifs <;> first | rfl | omega | (congr 1; omega)

theorem first_insert (cells : Nat → α) {pos n : Nat} (within : pos ≤ n) (x : α) :
    first (Function.update (shiftRight cells pos (n - pos)) pos x) (n + 1) =
      (first cells n).take pos ++ x :: (first cells n).drop pos := by
  apply List.ext_getElem
  next =>
    simp only [first_length, List.length_append, List.length_take, List.length_cons,
      List.length_drop]
    omega
  next =>
    intro i left right
    simp only [first_length] at left
    simp only [first_getElem, Function.update_apply, shiftRight_apply, List.getElem_append,
      List.length_take, first_length, List.getElem_take, List.getElem_cons, List.getElem_drop,
      Nat.min_eq_left within]
    split_ifs <;> first | rfl | omega | (congr 1; omega)

-- `for (j = pos; j < pos + n; ++j) cells[j] = cells[j + 1];`
def closeGap (cells : Nat → α) (pos : Nat) : Nat → Nat → α
  | 0 => cells
  | n + 1 => Function.update (closeGap cells pos n) (pos + n) (closeGap cells pos n (pos + n + 1))

theorem closeGap_apply (cells : Nat → α) (pos n i : Nat) :
    closeGap cells pos n i = if pos ≤ i ∧ i < pos + n then cells (i + 1) else cells i := by
  induction n generalizing i with
  | zero =>
      rw [closeGap, if_neg]
      omega
  | succ n ih =>
      simp only [closeGap, Function.update_apply, ih]
      split_ifs <;> first | omega | simp_all

theorem first_closeGap (cells : Nat → α) {pos n : Nat} (within : pos ≤ n) :
    first (closeGap cells pos (n - pos)) n =
      (first cells (n + 1)).take pos ++ (first cells (n + 1)).drop (pos + 1) := by
  apply List.ext_getElem
  next =>
    simp only [first_length, List.length_append, List.length_take, List.length_drop]
    omega
  next =>
    intro i left right
    simp only [first_length] at left
    simp only [first_getElem, closeGap_apply, List.getElem_append, List.length_take, first_length,
      List.getElem_take, List.getElem_drop, Nat.min_eq_left (Nat.le_succ_of_le within)]
    split_ifs <;> first | rfl | omega | (congr 1; omega)

section Ring

variable {cap head n : Nat}

theorem offset_eq (first : Nat) {i j : Nat} (left : i < cap) (right : j < cap)
    (same : (first + i) % cap = (first + j) % cap) : i = j := by
  have congruent : i ≡ j [MOD cap] := Nat.ModEq.add_left_cancel' first same
  exact Nat.ModEq.eq_of_lt_of_lt congruent left right

theorem ring_congr {cells other : Nat → α}
    (same : ∀ k < n, cells ((head + k) % cap) = other ((head + k) % cap)) :
    ring cells cap head n = ring other cap head n := by
  apply List.map_congr_left
  intro k member
  exact same k (List.mem_range.mp member)

theorem ring_mod_head (cells : Nat → α) (k : Nat) :
    ring cells cap (head % cap + k) n = ring cells cap (head + k) n := by
  simp only [ring, Nat.add_assoc, Nat.mod_add_mod]

theorem ring_mod (cells : Nat → α) : ring cells cap (head % cap) n = ring cells cap head n :=
  ring_mod_head cells 0

theorem ring_succ (cells : Nat → α) :
    ring cells cap head (n + 1) = ring cells cap head n ++ [cells ((head + n) % cap)] := by
  simp [ring, List.range_succ]

theorem ring_add (cells : Nat → α) (more : Nat) :
    ring cells cap head (n + more) = ring cells cap head n ++ ring cells cap (head + n) more := by
  simp [ring, List.range_add, Nat.add_assoc]

theorem ring_push (cells : Nat → α) (room : n < cap) (x : α) :
    ring (Function.update cells ((head + n) % cap) x) cap head (n + 1) =
      ring cells cap head n ++ [x] := by
  rw [ring_succ, Function.update_self]
  congr 1
  apply ring_congr
  intro k within
  refine Function.update_of_ne ?_ _ _
  intro same
  have := offset_eq head (by omega) room same
  omega

theorem ring_cons (cells : Nat → α) :
    ring cells cap head (n + 1) = cells (head % cap) :: ring cells cap ((head + 1) % cap) n := by
  simp only [ring, List.range_succ_eq_map, List.map_cons, List.map_map, Nat.add_zero]
  congr 1
  apply List.map_congr_left
  intro k _
  rw [Nat.mod_add_mod, Nat.add_assoc, Nat.add_comm 1 k]
  rfl

theorem ring_tail_update (cells : Nat → α) (room : n < cap) (x : α) :
    ring (Function.update cells (head % cap) x) cap ((head + 1) % cap) n =
      ring cells cap ((head + 1) % cap) n := by
  apply ring_congr
  intro k within
  refine Function.update_of_ne ?_ _ _
  intro same
  rw [Nat.mod_add_mod, Nat.add_assoc, Nat.add_comm 1 k] at same
  have := offset_eq head (i := k + 1) (j := 0) (by omega) (by omega) same
  omega

theorem ring_update_behind (cells : Nat → α) {k : Nat} (room : k + 1 + n ≤ cap) (x : α) :
    ring (Function.update cells (head % cap) x) cap (head + 1 + k) n =
      ring cells cap (head + 1 + k) n := by
  apply ring_congr
  intro j within
  refine Function.update_of_ne ?_ _ _
  intro same
  rw [Nat.add_assoc head, Nat.add_assoc head] at same
  have := offset_eq head (i := 1 + k + j) (j := 0) (by omega) (by omega) same
  omega

end Ring

end Slots
