import Mathlib.Tactic.Common

set_option autoImplicit false

namespace Monitor

variable {θ : Type}

def Excludes (owner : Option θ) (inside : θ → Bool) : Prop :=
  ∀ thread, owner = some thread ↔ inside thread = true

namespace Excludes

variable {owner : Option θ} {inside inside' : θ → Bool}

theorem unique (excludes : Excludes owner inside) {first second : θ}
    (firstInside : inside first = true) (secondInside : inside second = true) : first = second := by
  have held := (excludes first).mpr firstInside
  rw [(excludes second).mpr secondInside] at held
  exact (Option.some.inj held).symm

theorem outside (excludes : Excludes owner inside) (free : owner = none) (thread : θ) :
    inside thread = false := by
  rw [← Bool.not_eq_true, ← excludes thread, free]
  exact nofun

theorem alone (excludes : Excludes owner inside) {thread other : θ}
    (within : inside thread = true) (different : other ≠ thread) : inside other = false := by
  rw [← Bool.not_eq_true]
  intro too
  exact different (excludes.unique too within)

theorem keep (excludes : Excludes owner inside)
    (same : ∀ thread, inside' thread = inside thread) : Excludes owner inside' := by
  intro thread
  rw [same]
  exact excludes thread

theorem enter (excludes : Excludes owner inside) (free : owner = none) {thread : θ}
    (entered : inside' thread = true)
    (others : ∀ other, other ≠ thread → inside' other = inside other) :
    Excludes (some thread) inside' := by
  intro other
  by_cases same : other = thread
  next => simp [same, entered]
  next =>
    rw [others other same, excludes.outside free other]
    simp [Ne.symm same]

theorem leave (excludes : Excludes owner inside) {thread : θ} (within : inside thread = true)
    (left : inside' thread = false)
    (others : ∀ other, other ≠ thread → inside' other = inside other) :
    Excludes none inside' := by
  intro other
  by_cases same : other = thread
  next => simp [same, left]
  next => simp [others other same, excludes.alone within same]

end Excludes

end Monitor
