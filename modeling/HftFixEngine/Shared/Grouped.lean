import Mathlib.Data.List.Dedup
import Mathlib.Data.List.Sort

set_option autoImplicit false

structure Grouped {γ α κ : Type} (name : γ → κ) (items : γ → List α) (key : α → κ)
    (groups : List γ) : Prop where
  distinct : (groups.map name).Nodup
  own : ∀ group ∈ groups, ∀ x ∈ items group, key x = name group
  some : ∀ group ∈ groups, items group ≠ []

namespace Grouped

variable {γ α κ : Type} {name : γ → κ} {items : γ → List α} {key : α → κ} {groups : List γ}

theorem tail {group : γ} (grouped : Grouped name items key (group :: groups)) :
    Grouped name items key groups where
  distinct := (List.nodup_cons.mp grouped.distinct).2
  own other member := grouped.own other (List.mem_cons_of_mem _ member)
  some other member := grouped.some other (List.mem_cons_of_mem _ member)

theorem mem_keys (grouped : Grouped name items key groups) {k : κ} :
    k ∈ (groups.flatMap items).map key ↔ k ∈ groups.map name := by
  constructor
  next =>
    intro member
    obtain ⟨x, inside, rfl⟩ := List.mem_map.mp member
    obtain ⟨group, listed, held⟩ := List.mem_flatMap.mp inside
    exact List.mem_map.mpr ⟨group, listed, (grouped.own group listed x held).symm⟩
  next =>
    intro member
    obtain ⟨group, listed, rfl⟩ := List.mem_map.mp member
    obtain ⟨x, held⟩ := List.exists_mem_of_ne_nil _ (grouped.some group listed)
    exact List.mem_map.mpr
      ⟨x, List.mem_flatMap.mpr ⟨group, listed, held⟩, grouped.own group listed x held⟩

variable [DecidableEq κ]

theorem filter_of_notMem (grouped : Grouped name items key groups) {k : κ}
    (missing : k ∉ groups.map name) :
    (groups.flatMap items).filter (fun x => key x = k) = [] := by
  rw [List.filter_eq_nil_iff]
  intro x inside same
  refine missing (grouped.mem_keys.mp (List.mem_map.mpr ⟨x, inside, of_decide_eq_true same⟩))

theorem filter_eq (grouped : Grouped name items key groups) {group : γ} (member : group ∈ groups) :
    (groups.flatMap items).filter (fun x => key x = name group) = items group := by
  induction groups with
  | nil => cases member
  | cons first groups ih =>
      rw [List.flatMap_cons, List.filter_append]
      obtain ⟨fresh, -⟩ := List.nodup_cons.mp grouped.distinct
      rcases List.mem_cons.mp member with rfl | later
      next =>
        have all : (items group).filter (fun x => key x = name group) = items group := by
          rw [List.filter_eq_self]
          exact fun x held => decide_eq_true (grouped.own group member x held)
        rw [all, grouped.tail.filter_of_notMem fresh, List.append_nil]
      next =>
        have none : (items first).filter (fun x => key x = name group) = [] := by
          rw [List.filter_eq_nil_iff]
          intro x held same
          have own := grouped.own first List.mem_cons_self x held
          exact fresh (List.mem_map.mpr ⟨group, later, (of_decide_eq_true same).symm.trans own⟩)
        rw [none, ih grouped.tail later, List.nil_append]

theorem sorted_keys (grouped : Grouped name items key groups) (r : κ → κ → Prop) [DecidableRel r]
    [Std.Antisymm r] [Std.Total r] [IsTrans κ r] (sorted : (groups.map name).Pairwise r) :
    (((groups.flatMap items).map key).dedup).insertionSort r = groups.map name := by
  have same : (((groups.flatMap items).map key).dedup).Perm (groups.map name) := by
    rw [List.perm_ext_iff_of_nodup (List.nodup_dedup _) grouped.distinct]
    intro k
    rw [List.mem_dedup, grouped.mem_keys]
  exact ((List.perm_insertionSort r _).trans same).eq_of_pairwise'
    (List.pairwise_insertionSort r _) sorted

end Grouped
