import Mathlib.Tactic.Common

set_option autoImplicit false

namespace Loop

variable {σ : Type} (guard : σ → Bool) (body : σ → σ)

-- `while (guard s) s = body s;`, cut off after `fuel` rounds.
def run : Nat → σ → σ
  | 0, state => state
  | fuel + 1, state => if guard state then run fuel (body state) else state

variable {guard body}

theorem run_of_stopped (fuel : Nat) {state : σ} (stopped : guard state = false) :
    run guard body fuel state = state := by
  cases fuel <;> simp [run, stopped]

theorem run_of_going (fuel : Nat) {state : σ} (going : guard state = true) :
    run guard body (fuel + 1) state = run guard body fuel (body state) := by
  simp [run, going]

theorem run_invariant (inv : σ → Prop)
    (step : ∀ state, inv state → guard state = true → inv (body state))
    (fuel : Nat) {state : σ} (start : inv state) : inv (run guard body fuel state) := by
  induction fuel generalizing state with
  | zero => exact start
  | succ fuel ih =>
      by_cases going : guard state = true
      next =>
        rw [run_of_going fuel going]
        exact ih (step state start going)
      next =>
        rw [run_of_stopped _ (by simpa using going)]
        exact start

-- Enough fuel means the loop ends by its own guard, never by the cut-off.
theorem run_exits (inv : σ → Prop) (variant : σ → Nat)
    (step : ∀ state, inv state → guard state = true → inv (body state))
    (decreases : ∀ state, inv state → guard state = true → variant (body state) < variant state)
    (fuel : Nat) {state : σ} (start : inv state) (enough : variant state ≤ fuel) :
    guard (run guard body fuel state) = false := by
  induction fuel generalizing state with
  | zero =>
      by_contra going
      have less := decreases state start (by simpa [run] using going)
      omega
  | succ fuel ih =>
      by_cases going : guard state = true
      next =>
        rw [run_of_going fuel going]
        have less := decreases state start going
        exact ih (step state start going) (by omega)
      next =>
        rw [run_of_stopped _ (by simpa using going)]
        simpa using going

theorem run_map {τ : Type} {guard' : τ → Bool} {body' : τ → τ} (change : σ → τ)
    (same : ∀ state, guard' (change state) = guard state)
    (carried : ∀ state, body' (change state) = change (body state)) (fuel : Nat) (state : σ) :
    run guard' body' fuel (change state) = change (run guard body fuel state) := by
  induction fuel generalizing state with
  | zero => rfl
  | succ fuel ih =>
      cases going : guard state with
      | true => rw [run_of_going fuel (by rw [same, going]), run_of_going fuel going, carried, ih]
      | false => rw [run_of_stopped _ (by rw [same, going]), run_of_stopped _ going]

-- Once it has ended by its own guard, more fuel makes no difference.
theorem run_stable {fuel more : Nat} {state : σ} (ended : guard (run guard body fuel state) = false)
    (enough : fuel ≤ more) : run guard body more state = run guard body fuel state := by
  induction fuel generalizing more state with
  | zero => exact run_of_stopped more ended
  | succ fuel ih =>
      obtain ⟨more, rfl⟩ := Nat.exists_eq_add_of_le' (Nat.lt_of_lt_of_le (Nat.succ_pos fuel) enough)
      cases going : guard state with
      | true =>
          rw [run_of_going fuel going] at ended
          rw [run_of_going fuel going, run_of_going more going]
          exact ih ended (by omega)
      | false => rw [run_of_stopped _ going, run_of_stopped _ going]

end Loop
