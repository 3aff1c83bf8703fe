import Mathlib.Data.List.Basic
import Mathlib.Logic.Function.Basic
import Mathlib.Tactic.Common

set_option autoImplicit false

namespace LastWriter

variable {κ ν : Type} [DecidableEq κ]

structure Write (κ ν : Type) where
  key : κ
  value : ν

def apply (store : κ → ν) (write : Write κ ν) : κ → ν :=
  Function.update store write.key write.value

def applyAll (store : κ → ν) (writes : List (Write κ ν)) : κ → ν := writes.foldl apply store

@[simp] theorem applyAll_cons (store : κ → ν) (write : Write κ ν) (writes : List (Write κ ν)) :
    applyAll store (write :: writes) = applyAll (apply store write) writes := rfl

theorem applyAll_append (store : κ → ν) (writes later : List (Write κ ν)) :
    applyAll store (writes ++ later) = applyAll (applyAll store writes) later :=
  List.foldl_append

theorem applyAll_of_not_mem (store : κ → ν) {writes : List (Write κ ν)} {k : κ}
    (unwritten : k ∉ writes.map Write.key) : applyAll store writes k = store k := by
  induction writes generalizing store with
  | nil => rfl
  | cons write writes ih =>
    rw [List.map_cons, List.mem_cons, not_or] at unwritten
    rw [applyAll_cons, ih (apply store write) unwritten.2]
    exact Function.update_of_ne unwritten.1 _ _

theorem applyAll_of_mem (store other : κ → ν) {writes : List (Write κ ν)} {k : κ}
    (written : k ∈ writes.map Write.key) : applyAll store writes k = applyAll other writes k := by
  induction writes generalizing store other with
  | nil => simp at written
  | cons write writes ih =>
    rw [applyAll_cons, applyAll_cons]
    by_cases again : k ∈ writes.map Write.key
    next => exact ih (apply store write) (apply other write) again
    next =>
      have here : k = write.key := by simpa [again] using written
      rw [applyAll_of_not_mem _ again, applyAll_of_not_mem _ again, here, apply, apply,
        Function.update_self, Function.update_self]

theorem applyAll_of_nodup (store : κ → ν) {writes : List (Write κ ν)}
    (distinct : (writes.map Write.key).Nodup) {write : Write κ ν} (member : write ∈ writes) :
    applyAll store writes write.key = write.value := by
  induction writes generalizing store with
  | nil => simp at member
  | cons head writes ih =>
    obtain ⟨once, rest⟩ := List.nodup_cons.mp distinct
    rw [applyAll_cons]
    rcases List.mem_cons.mp member with rfl | later
    next => rw [applyAll_of_not_mem _ once, apply, Function.update_self]
    next => exact ih (apply store head) rest later

theorem applyAll_again (store : κ → ν) (writes later : List (Write κ ν)) :
    applyAll (applyAll store (writes ++ later)) later = applyAll store (writes ++ later) := by
  funext k
  by_cases written : k ∈ later.map Write.key
  next =>
    rw [applyAll_of_mem _ (applyAll store writes) written, applyAll_append]
  next => exact applyAll_of_not_mem _ written

theorem applyAll_replace_iff (store : κ → ν) {writes others : List (Write κ ν)}
    (later : List (Write κ ν)) (distinct : (writes.map Write.key).Nodup)
    (otherDistinct : (others.map Write.key).Nodup)
    (apart : ∀ k, k ∈ writes.map Write.key → k ∉ others.map Write.key) :
    applyAll store (writes ++ later) = applyAll store (others ++ later) ↔
      ∀ write, write ∈ writes ++ others →
        write.key ∈ later.map Write.key ∨ store write.key = write.value := by
  have kept (list : List (Write κ ν)) {k : κ} (unwritten : k ∉ later.map Write.key) :
      applyAll store (list ++ later) k = applyAll store list k := by
    rw [applyAll_append, applyAll_of_not_mem _ unwritten]
  constructor
  next =>
    intro same write member
    by_cases again : write.key ∈ later.map Write.key
    next => exact Or.inl again
    next =>
      have here := congrFun same write.key
      rw [kept _ again, kept _ again] at here
      rcases List.mem_append.mp member with first | second
      next =>
        have absent := apart write.key (List.mem_map_of_mem first)
        rw [applyAll_of_nodup _ distinct first, applyAll_of_not_mem _ absent] at here
        exact Or.inr here.symm
      next =>
        have absent : write.key ∉ writes.map Write.key :=
          fun inside => apart write.key inside (List.mem_map_of_mem second)
        rw [applyAll_of_nodup _ otherDistinct second, applyAll_of_not_mem _ absent] at here
        exact Or.inr here
  next =>
    intro settled
    -- A list whose writes are all settled leaves the store as it is wherever nothing follows.
    have idle (list : List (Write κ ν)) (once : (list.map Write.key).Nodup)
        (part : ∀ write, write ∈ list → write ∈ writes ++ others) {k : κ}
        (unwritten : k ∉ later.map Write.key) : applyAll store list k = store k := by
      by_cases written : k ∈ list.map Write.key
      next =>
        obtain ⟨write, member, rfl⟩ := List.mem_map.mp written
        rw [applyAll_of_nodup _ once member]
        exact ((settled write (part write member)).resolve_left unwritten).symm
      next => exact applyAll_of_not_mem _ written
    funext k
    by_cases again : k ∈ later.map Write.key
    next =>
      rw [applyAll_append, applyAll_append]
      exact applyAll_of_mem _ _ again
    next =>
      rw [kept _ again, kept _ again, idle _ distinct (fun _ => List.mem_append_left _) again,
        idle _ otherDistinct (fun _ => List.mem_append_right _) again]

end LastWriter
