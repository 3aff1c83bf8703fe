import Mathlib.Logic.Function.Basic
import Mathlib.Order.Basic

set_option autoImplicit false

namespace Registers

variable {ι α : Type} [DecidableEq ι]

structure Storing (memory old new : ι → α) (pending : List ι) : Prop where
  nodup : pending.Nodup
  waiting : ∀ register ∈ pending, memory register = old register
  stored : ∀ register, register ∉ pending → memory register = new register

namespace Storing

variable {memory old new : ι → α} {register : ι} {pending : List ι}

omit [DecidableEq ι] in
theorem start (nodup : pending.Nodup) (all : ∀ register, register ∈ pending) :
    Storing old old new pending where
  nodup := nodup
  waiting := fun _ _ => rfl
  stored := fun register missing => absurd (all register) missing

theorem store (storing : Storing memory old new (register :: pending)) :
    Storing (Function.update memory register (new register)) old new pending := by
  obtain ⟨fresh, nodup⟩ := List.nodup_cons.mp storing.nodup
  constructor
  case nodup => exact nodup
  case waiting =>
    intro other member
    have different : other ≠ register := fun same => fresh (same ▸ member)
    rw [Function.update_of_ne different]
    exact storing.waiting other (List.mem_cons_of_mem register member)
  case stored =>
    intro other missing
    by_cases same : other = register
    next => rw [same, Function.update_self]
    next =>
      rw [Function.update_of_ne same]
      exact storing.stored other (by simp [same, missing])

omit [DecidableEq ι] in
theorem finished (storing : Storing memory old new []) : memory = new :=
  funext fun register => storing.stored register (by simp)

theorem between [Preorder α] (storing : Storing memory old new pending)
    (ordered : old register ≤ new register) :
    old register ≤ memory register ∧ memory register ≤ new register := by
  by_cases waits : register ∈ pending
  next =>
    rw [storing.waiting register waits]
    exact ⟨le_refl _, ordered⟩
  next =>
    rw [storing.stored register waits]
    exact ⟨ordered, le_refl _⟩

theorem store_grows [Preorder α] {next : ι} (storing : Storing memory old new (next :: pending))
    (ordered : old register ≤ new register) :
    memory register ≤ Function.update memory next (new next) register := by
  by_cases same : register = next
  next =>
    subst same
    rw [Function.update_self]
    exact (storing.between ordered).2
  next => rw [Function.update_of_ne same]

end Storing

-- What a sample holds of a register, or will hold at least.
def expected (sample memory : ι → α) (pending : List ι) (register : ι) : α :=
  if register ∈ pending then memory register else sample register

section Expected

variable {sample memory now : ι → α} {register : ι} {pending : List ι}

theorem expected_all (here : register ∈ pending) :
    expected sample memory pending register = memory register :=
  if_pos here

theorem expected_nil : expected sample memory [] register = sample register :=
  if_neg (by simp)

theorem expected_load {next : ι} (fresh : next ∉ pending) :
    expected (Function.update sample next (memory next)) memory pending register =
      expected sample memory (next :: pending) register := by
  unfold expected
  by_cases same : register = next
  next => simp [same, fresh]
  next => simp [same]

theorem expected_mono [Preorder α] (grows : memory register ≤ now register) :
    expected sample memory pending register ≤ expected sample now pending register := by
  unfold expected
  split
  next => exact grows
  next => exact le_refl _

end Expected

end Registers
