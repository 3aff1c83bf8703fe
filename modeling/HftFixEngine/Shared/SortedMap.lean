import Mathlib.Data.Finset.Dedup
import Mathlib.Data.Finset.Card
import Mathlib.Data.List.Nodup
import Mathlib.Order.RelClasses
import Mathlib.Tactic.Common

set_option autoImplicit false

namespace SortedMap

variable {α κ : Type} [DecidableEq κ] (key : α → κ) (before : κ → κ → Prop) [DecidableRel before]

def find (k : κ) (xs : List α) : Option α := xs.find? (key · = k)

def put (room : Bool) (x : α) : List α → List α
  | [] => if room then [x] else []
  | y :: ys =>
    if key y = key x then x :: ys
    else if before (key x) (key y) then if room then x :: y :: ys else y :: ys
    else y :: put room x ys

def remove (k : κ) (xs : List α) : List α := xs.eraseP (key · = k)

def Sorted (xs : List α) : Prop := xs.Pairwise fun x y => before (key x) (key y)

variable {key before}

section Find

omit [DecidableRel before]

@[simp] theorem find_nil (k : κ) : find key k [] = none := rfl

theorem find_cons (k : κ) (x : α) (xs : List α) :
    find key k (x :: xs) = if key x = k then some x else find key k xs := by
  by_cases here : key x = k <;> simp [find, here]

theorem find_key {k : κ} {x : α} {xs : List α} (found : find key k xs = some x) : key x = k := by
  simpa using List.find?_some found

theorem find_mem {k : κ} {x : α} {xs : List α} (found : find key k xs = some x) : x ∈ xs :=
  List.mem_of_find?_eq_some found

theorem find_isSome {k : κ} {xs : List α} :
    (find key k xs).isSome = true ↔ k ∈ xs.map key := by
  simp [find, List.find?_isSome]

theorem find_eq_none {k : κ} {xs : List α} : find key k xs = none ↔ k ∉ xs.map key := by
  rw [← find_isSome]
  simp

end Find

theorem mem_put {room : Bool} {x y : α} {xs : List α} (member : y ∈ put key before room x xs) :
    y = x ∨ y ∈ xs := by
  induction xs with
  | nil => cases room <;> simp_all [put]
  | cons z zs ih => grind [put]

theorem put_keys {room : Bool} {x : α} {xs : List α} {k : κ}
    (member : k ∈ (put key before room x xs).map key) : k = key x ∨ k ∈ xs.map key := by
  obtain ⟨y, entry, rfl⟩ := List.mem_map.mp member
  rcases mem_put entry with rfl | old
  next => exact .inl rfl
  next => exact .inr (List.mem_map_of_mem old)

theorem put_length_le (room : Bool) (x : α) (xs : List α) :
    (put key before room x xs).length ≤ xs.length + room.toNat := by
  induction xs with
  | nil => cases room <;> simp [put]
  | cons y ys ih =>
    unfold put
    split_ifs with same precedes spare
    next => simp
    next => simp [spare]
    next => simp
    next => simp only [List.length_cons]; omega

theorem put_length_bounded (x : α) {xs : List α} {capacity : Nat} (bounded : xs.length ≤ capacity) :
    (put key before (decide (xs.length < capacity)) x xs).length ≤ capacity := by
  refine (put_length_le (decide (xs.length < capacity)) x xs).trans ?_
  by_cases room : xs.length < capacity
  next =>
    rw [decide_eq_true room]
    exact room
  next =>
    rw [decide_eq_false room]
    exact bounded

omit [DecidableRel before] in
theorem remove_sublist (k : κ) (xs : List α) : (remove key k xs).Sublist xs :=
  List.eraseP_sublist

omit [DecidableRel before] in
theorem sorted_remove (k : κ) {xs : List α} (sorted : Sorted key before xs) :
    Sorted key before (remove key k xs) :=
  List.Pairwise.sublist (remove_sublist k xs) sorted

variable [IsStrictTotalOrder κ before]

theorem sorted_put (room : Bool) (x : α) {xs : List α} (sorted : Sorted key before xs) :
    Sorted key before (put key before room x xs) := by
  induction xs with
  | nil => cases room <;> simp [put, Sorted]
  | cons y ys ih =>
    obtain ⟨ahead, rest⟩ := List.pairwise_cons.mp sorted
    unfold put
    split
    next same =>
      refine List.pairwise_cons.mpr ⟨?_, rest⟩
      intro z member
      rw [← same]
      exact ahead z member
    next other =>
      split
      next precedes =>
        split
        next =>
          refine List.pairwise_cons.mpr ⟨?_, sorted⟩
          intro z member
          rcases List.mem_cons.mp member with rfl | later
          next => exact precedes
          next => exact trans_of before precedes (ahead z later)
        next => exact sorted
      next follows =>
        refine List.pairwise_cons.mpr ⟨?_, ih rest⟩
        intro z member
        rcases mem_put member with rfl | old
        next =>
          rcases trichotomous_of before (key y) (key z) with less | equal | greater
          next => exact less
          next => exact absurd equal other
          next => exact absurd greater follows
        next => exact ahead z old

omit [DecidableEq κ] [DecidableRel before] in
theorem nodup_keys {xs : List α} (sorted : Sorted key before xs) : (xs.map key).Nodup := by
  rw [List.nodup_iff_pairwise_ne, List.pairwise_map]
  refine sorted.imp ?_
  intro x y precedes same
  rw [same] at precedes
  exact irrefl_of before _ precedes

omit [DecidableRel before] in
theorem find_of_mem {xs : List α} (sorted : Sorted key before xs) {x : α} (member : x ∈ xs) :
    find key (key x) xs = some x := by
  obtain ⟨y, found⟩ := Option.isSome_iff_exists.mp
    (find_isSome.mpr (List.mem_map_of_mem (f := key) member))
  rw [found, List.inj_on_of_nodup_map (nodup_keys sorted) (find_mem found) member (find_key found)]

theorem find_put {room : Bool} {x : α} {xs : List α} (sorted : Sorted key before xs)
    (fits : room = true ∨ key x ∈ xs.map key) (k : κ) :
    find key k (put key before room x xs) = if key x = k then some x else find key k xs := by
  induction xs with
  | nil =>
    have spare : room = true := by simpa using fits
    simp [put, spare, find_cons]
  | cons y ys ih =>
    obtain ⟨ahead, rest⟩ := List.pairwise_cons.mp sorted
    unfold put
    split
    next same =>
      rw [find_cons, find_cons, same]
      split <;> rfl
    next other =>
      split
      next precedes =>
        -- A key that precedes the first entry is not in the list at all.
        have absent : key x ∉ (y :: ys).map key := by
          intro member
          obtain ⟨z, entry, same⟩ := List.mem_map.mp member
          rcases List.mem_cons.mp entry with rfl | later
          next => exact other same
          next =>
            have between := trans_of before precedes (ahead z later)
            rw [same] at between
            exact irrefl_of before _ between
        rw [if_pos (fits.resolve_right absent), find_cons]
      next =>
        have tailFits : room = true ∨ key x ∈ ys.map key := by
          refine fits.imp_right ?_
          intro member
          rcases List.mem_cons.mp member with same | later
          next => exact absurd same.symm other
          next => exact later
        rw [find_cons, find_cons, ih rest tailFits]
        by_cases here : key x = k
        next => rw [if_pos here, if_pos here, if_neg (by rwa [← here])]
        next => rw [if_neg here, if_neg here]

omit [DecidableRel before] in
theorem find_remove {xs : List α} (sorted : Sorted key before xs) (gone k : κ) :
    find key k (remove key gone xs) = if gone = k then none else find key k xs := by
  induction xs with
  | nil => simp [remove]
  | cons y ys ih =>
    obtain ⟨ahead, rest⟩ := List.pairwise_cons.mp sorted
    by_cases here : key y = gone
    next =>
      have removed : remove key gone (y :: ys) = ys := by simp [remove, here]
      have unique := (List.nodup_cons.mp (nodup_keys sorted)).1
      rw [removed, find_cons, here]
      split
      next same => exact find_eq_none.mpr (by rwa [← same, ← here])
      next => rfl
    next =>
      have kept : remove key gone (y :: ys) = y :: remove key gone ys := by simp [remove, here]
      rw [kept, find_cons, find_cons, ih rest]
      by_cases same : gone = k
      next => rw [if_pos same, if_pos same, if_neg (by rwa [← same])]
      next => rw [if_neg same, if_neg same]

omit [DecidableRel before] in
theorem ext {xs ys : List α} (left : Sorted key before xs) (right : Sorted key before ys)
    (same : ∀ k, find key k xs = find key k ys) : xs = ys := by
  have perm : xs.Perm ys := by
    rw [List.perm_ext_iff_of_nodup (nodup_keys left).of_map (nodup_keys right).of_map]
    intro x
    constructor
    next =>
      intro member
      exact find_mem ((same (key x)).symm.trans (find_of_mem left member))
    next =>
      intro member
      exact find_mem ((same (key x)).trans (find_of_mem right member))
  refine perm.eq_of_pairwise ?_ left right
  intro x y _ _ forward backward
  exact absurd (trans_of before forward backward) (irrefl_of before _)

omit [DecidableRel before] in
theorem length_le_card {xs : List α} (sorted : Sorted key before xs) {keys : Finset κ}
    (within : ∀ k, k ∈ xs.map key → k ∈ keys) : xs.length ≤ keys.card := by
  have card := List.toFinset_card_of_nodup (nodup_keys sorted)
  rw [List.length_map] at card
  rw [← card]
  exact Finset.card_le_card (fun k member => within k (List.mem_toFinset.mp member))

omit [DecidableRel before] in
theorem length_lt_card {xs : List α} (sorted : Sorted key before xs) {keys : Finset κ}
    (within : ∀ k, k ∈ xs.map key → k ∈ keys) {extra : κ} (listed : extra ∈ keys)
    (absent : extra ∉ xs.map key) : xs.length < keys.card := by
  have rest : xs.length ≤ (keys.erase extra).card := by
    apply length_le_card sorted
    intro k member
    refine Finset.mem_erase.mpr ⟨?_, within k member⟩
    rintro rfl
    exact absent member
  have positive := Finset.card_pos.mpr ⟨extra, listed⟩
  rw [Finset.card_erase_of_mem listed] at rest
  omega

end SortedMap
