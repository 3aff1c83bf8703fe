import Mathlib.Data.List.TakeWhile

set_option autoImplicit false

namespace Scan

variable {α : Type} {inside : α → Bool} {body rest : List α}

def Stops (inside : α → Bool) (rest : List α) : Prop :=
  ∀ x, rest.head? = some x → inside x = false

theorem stops_nil : Stops inside [] := by
  simp [Stops]

theorem stops_cons {x : α} (outside : inside x = false) : Stops inside (x :: rest) := by
  simpa [Stops] using outside

theorem takeWhile_body (all : ∀ x, x ∈ body → inside x = true) (stops : Stops inside rest) :
    (body ++ rest).takeWhile inside = body := by
  rw [List.takeWhile_append_of_pos all]
  cases rest with
  | nil => simp
  | cons x rest => simp [stops x rfl]

theorem dropWhile_body (all : ∀ x, x ∈ body → inside x = true) (stops : Stops inside rest) :
    (body ++ rest).dropWhile inside = rest := by
  rw [List.dropWhile_append_of_pos all]
  cases rest with
  | nil => simp
  | cons x rest => simp [stops x rfl]

end Scan
