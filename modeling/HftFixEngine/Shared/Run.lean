import Mathlib.Tactic.Common
import Mathlib.Logic.Function.Iterate

set_option autoImplicit false

namespace Run

variable {σ ε : Type} (step : σ → ε → σ) (guard : σ → ε → Prop)

def Guarded : σ → List ε → Prop
  | _, [] => True
  | state, event :: events => guard state event ∧ Guarded (step state event) events

instance decidableGuarded [∀ state event, Decidable (guard state event)] (state : σ)
    (events : List ε) : Decidable (Guarded step guard state events) :=
  match events with
  | [] => inferInstanceAs (Decidable True)
  | event :: events =>
    have := decidableGuarded (step state event) events
    inferInstanceAs (Decidable (guard state event ∧ Guarded step guard (step state event) events))

variable {step guard}

theorem Guarded.append {state : σ} {events later : List ε}
    (guarded : Guarded step guard state (events ++ later)) :
    Guarded step guard (events.foldl step state) later := by
  induction events generalizing state with
  | nil => exact guarded
  | cons event events ih => exact ih guarded.2

theorem guarded_append {state : σ} {events later : List ε} :
    Guarded step guard state (events ++ later) ↔
      Guarded step guard state events ∧ Guarded step guard (events.foldl step state) later := by
  induction events generalizing state with
  | nil => simp [Guarded]
  | cons event events ih => simp [Guarded, ih, and_assoc]

theorem Guarded.invariant {inv : σ → Prop}
    (keeps : ∀ state event, inv state → guard state event → inv (step state event))
    {state : σ} (start : inv state) {events later : List ε}
    (guarded : Guarded step guard state (events ++ later)) : inv (events.foldl step state) := by
  induction events generalizing state with
  | nil => exact start
  | cons event events ih => exact ih (keeps state event start guarded.1) guarded.2

theorem guarded_iff {inv : σ → Prop} {other : σ → ε → Prop}
    (keeps : ∀ state event, inv state → inv (step state event))
    (same : ∀ state event, inv state → (guard state event ↔ other state event))
    {state : σ} (start : inv state) (events : List ε) :
    Guarded step guard state events ↔ Guarded step other state events := by
  induction events generalizing state with
  | nil => exact Iff.rfl
  | cons event events ih =>
    exact and_congr (same state event start) (ih (keeps state event start))

-- A step that keeps the invariant and lowers the rank until it is there gets there.
theorem reaches {next : σ → σ} {inv goal : σ → Prop} {rank : σ → Nat}
    (closer : ∀ state, inv state → ¬ goal state →
      inv (next state) ∧ rank (next state) < rank state)
    {state : σ} (start : inv state) :
    ∃ steps, inv (next^[steps] state) ∧ goal (next^[steps] state) := by
  induction height : rank state using Nat.strongRecOn generalizing state with
  | ind height ih =>
    by_cases there : goal state
    next => exact ⟨0, start, there⟩
    next =>
      obtain ⟨kept, lower⟩ := closer state start there
      obtain ⟨steps, reached⟩ := ih _ (height ▸ lower) kept rfl
      exact ⟨steps + 1, reached⟩

end Run
