import Mathlib.Algebra.BigOperators.Group.List.Basic
import Mathlib.Algebra.Ring.Nat
import Mathlib.Tactic.Common

set_option autoImplicit false

namespace Consume

variable {α : Type}

structure Supply (α : Type) where
  qty : α → Nat
  reduce : α → Nat → α
  qty_reduce : ∀ x n, qty (reduce x n) = qty x - n

structure Outcome (α : Type) where
  fills : List (α × Nat)
  rest : List α
  unmet : Nat

def Outcome.map {β : Type} (f : α → β) (outcome : Outcome α) : Outcome β :=
  ⟨outcome.fills.map (Prod.map f id), outcome.rest.map f, outcome.unmet⟩

variable (supply : Supply α) (refused : α → Bool)

def consume : Nat → List α → Outcome α
  | need, [] => ⟨[], [], need⟩
  | need, x :: xs =>
    if need = 0 ∨ refused x = true then ⟨[], x :: xs, need⟩
    else
      let taken := min need (supply.qty x)
      if supply.qty x - taken = 0 then
        let later := consume (need - taken) xs
        ⟨(x, taken) :: later.fills, later.rest, later.unmet⟩
      else ⟨[(x, taken)], supply.reduce x taken :: xs, need - taken⟩

def eligible (xs : List α) : List α := xs.takeWhile fun x => !refused x

variable {supply refused}

@[simp] theorem consume_nil (need : Nat) : consume supply refused need [] = ⟨[], [], need⟩ := by
  simp [consume]

@[simp] theorem consume_zero (xs : List α) : consume supply refused 0 xs = ⟨[], xs, 0⟩ := by
  cases xs <;> simp [consume]

theorem consume_refused (need : Nat) (x : α) (xs : List α) (stops : refused x = true) :
    consume supply refused need (x :: xs) = ⟨[], x :: xs, need⟩ := by
  simp [consume, stops]

theorem consume_all (need : Nat) (x : α) (xs : List α) (wanted : 0 < need)
    (accepted : refused x = false) (exhausted : supply.qty x ≤ need) :
    consume supply refused need (x :: xs) =
      ⟨(x, supply.qty x) :: (consume supply refused (need - supply.qty x) xs).fills,
        (consume supply refused (need - supply.qty x) xs).rest,
        (consume supply refused (need - supply.qty x) xs).unmet⟩ := by
  have some : need ≠ 0 := by omega
  simp [consume, some, accepted, Nat.min_eq_right exhausted]

theorem consume_part (need : Nat) (x : α) (xs : List α) (wanted : 0 < need)
    (accepted : refused x = false) (left : need < supply.qty x) :
    consume supply refused need (x :: xs) = ⟨[(x, need)], supply.reduce x need :: xs, 0⟩ := by
  have some : need ≠ 0 := by omega
  have more : supply.qty x - need ≠ 0 := by omega
  simp [consume, some, accepted, Nat.min_eq_left (Nat.le_of_lt left), more]

variable (supply refused) in
theorem consume_cases {motive : Nat → List α → Outcome α → Prop}
    (empty : ∀ need, motive need [] ⟨[], [], need⟩)
    (met : ∀ xs, motive 0 xs ⟨[], xs, 0⟩)
    (stopped : ∀ need x xs, refused x = true → motive need (x :: xs) ⟨[], x :: xs, need⟩)
    (part : ∀ need x xs, 0 < need → refused x = false → need < supply.qty x →
      motive need (x :: xs) ⟨[(x, need)], supply.reduce x need :: xs, 0⟩)
    (all : ∀ need x xs later, 0 < need → refused x = false → supply.qty x ≤ need →
      motive (need - supply.qty x) xs later →
      motive need (x :: xs) ⟨(x, supply.qty x) :: later.fills, later.rest, later.unmet⟩)
    (need : Nat) (xs : List α) : motive need xs (consume supply refused need xs) := by
  induction xs generalizing need with
  | nil => simpa using empty need
  | cons x xs ih =>
      by_cases zero : need = 0
      next =>
        subst zero
        simpa using met (x :: xs)
      next =>
        by_cases stops : refused x = true
        next =>
          rw [consume_refused need x xs stops]
          exact stopped need x xs stops
        next =>
          have accepted : refused x = false := by simpa using stops
          by_cases exhausted : supply.qty x ≤ need
          next =>
            rw [consume_all need x xs (by omega) accepted exhausted]
            exact all need x xs _ (by omega) accepted exhausted (ih _)
          next =>
            rw [consume_part need x xs (by omega) accepted (by omega)]
            exact part need x xs (by omega) accepted (by omega)

theorem consume_congr {other : α → Bool} (need : Nat) (xs : List α)
    (same : ∀ x ∈ xs, refused x = other x) :
    consume supply refused need xs = consume supply other need xs := by
  induction xs generalizing need with
  | nil => simp
  | cons x xs ih =>
      have later := fun need => ih need fun y member => same y (List.mem_cons_of_mem x member)
      simp [consume, same x (by simp), later]

theorem consume_met (need : Nat) (xs : List α) (accepted : ∀ x ∈ xs, refused x = false)
    (left : (consume supply refused need xs).rest ≠ []) :
    (consume supply refused need xs).unmet = 0 := by
  revert left
  induction need, xs using consume_cases supply refused with
  | empty | met | part => simp
  | stopped need x xs stops => simp_all
  | all need x xs later _ _ _ ih =>
      exact ih fun y member => accepted y (List.mem_cons_of_mem x member)

variable (supply refused) in
theorem consume_conserves (need : Nat) (xs : List α) :
    ((consume supply refused need xs).fills.map Prod.snd).sum +
      (consume supply refused need xs).unmet = need := by
  induction need, xs using consume_cases supply refused with
  | empty | met | stopped | part => simp
  | all need x xs later _ _ exhausted ih => simp only [List.map_cons, List.sum_cons]; omega

theorem consume_draws (kind : α → Bool) (keeps : ∀ x n, kind (supply.reduce x n) = kind x)
    (need : Nat) (xs : List α) :
    (((consume supply refused need xs).fills.filter fun fill => kind fill.1).map Prod.snd).sum +
        (((consume supply refused need xs).rest.filter kind).map supply.qty).sum =
      ((xs.filter kind).map supply.qty).sum := by
  induction need, xs using consume_cases supply refused with
  | empty | met | stopped => simp
  | part need x xs wanted accepted left =>
      have total : need + (supply.qty x - need) = supply.qty x := by omega
      cases counted : kind x <;>
        simp [keeps, counted, supply.qty_reduce, ← Nat.add_assoc, total]
  | all need x xs later wanted accepted exhausted ih =>
      cases counted : kind x with
      | true =>
          simp only [List.filter_cons, counted, if_true, List.map_cons, List.sum_cons]
          omega
      | false =>
          simp only [List.filter_cons, counted, Bool.false_eq_true, if_false]
          exact ih

variable (supply refused) in
theorem consume_unmet_le (need : Nat) (xs : List α) :
    (consume supply refused need xs).unmet ≤ need := by
  have conserved := consume_conserves supply refused need xs
  omega

theorem consume_exit (need : Nat) (xs : List α)
    (unmet : (consume supply refused need xs).unmet ≠ 0) :
    ∀ x ∈ (consume supply refused need xs).rest.head?, refused x = true := by
  revert unmet
  induction need, xs using consume_cases supply refused with
  | empty | met | part => simp
  | stopped need x xs stops => simp [stops]
  | all need x xs later _ _ _ ih => exact ih

theorem consume_fills_length (need : Nat) (xs : List α) (bound : Nat) :
    (consume supply refused need xs).fills.length ≤ bound ↔
      (eligible refused xs).length ≤ bound ∨
        need ≤ (((eligible refused xs).take bound).map supply.qty).sum := by
  induction need, xs using consume_cases supply refused generalizing bound with
  | empty => simp [eligible]
  | met => simp
  | stopped need x xs stops => simp [eligible, stops]
  | part need x xs wanted accepted left =>
      simp only [eligible, List.takeWhile_cons, accepted, Bool.not_false, if_true]
      cases bound with
      | zero => simp; omega
      | succ bound => simp; omega
  | all need x xs later wanted accepted exhausted ih =>
      simp only [eligible, List.takeWhile_cons, accepted, Bool.not_false, if_true]
      cases bound with
      | zero => simp; omega
      | succ bound =>
          have later := ih bound
          simp only [eligible] at later
          simp only [List.length_cons, List.take_succ_cons, List.map_cons, List.sum_cons]
          omega

-- A demand goes through two queues one after the other when nothing in the first is refused.
theorem consume_append (need : Nat) (xs ys : List α) (accepted : ∀ x ∈ xs, refused x = false) :
    consume supply refused need (xs ++ ys) =
      let before := consume supply refused need xs
      let after := consume supply refused before.unmet ys
      ⟨before.fills ++ after.fills, before.rest ++ after.rest, after.unmet⟩ := by
  induction need, xs using consume_cases supply refused with
  | empty => simp
  | met => simp
  | stopped need x xs stops => simp_all
  | part need x xs wanted accept left =>
      rw [List.cons_append, consume_part need x (xs ++ ys) wanted accept left]
      simp
  | all need x xs later wanted accept exhausted ih =>
      have tail := ih (fun y member => accepted y (List.mem_cons_of_mem x member))
      rw [List.cons_append, consume_all need x (xs ++ ys) wanted accept exhausted, tail]
      simp

theorem consume_map {β : Type} {view : Supply β} {refusedView : β → Bool} (f : α → β)
    (qty : ∀ x, view.qty (f x) = supply.qty x)
    (reduce : ∀ x n, view.reduce (f x) n = f (supply.reduce x n))
    (stops : ∀ x, refusedView (f x) = refused x) (need : Nat) (xs : List α) :
    consume view refusedView need (xs.map f) = (consume supply refused need xs).map f := by
  induction need, xs using consume_cases supply refused with
  | empty | met => simp [Outcome.map]
  | stopped need x xs refusal =>
      rw [List.map_cons, consume_refused _ _ _ (by rw [stops, refusal])]
      rfl
  | part need x xs wanted accepted left =>
      rw [List.map_cons, consume_part _ _ _ wanted (by rw [stops, accepted]) (by rwa [qty]), reduce]
      rfl
  | all need x xs later wanted accepted exhausted ih =>
      rw [List.map_cons, consume_all _ _ _ wanted (by rw [stops, accepted]) (by rwa [qty]), qty, ih]
      rfl

theorem mem_of_mem_fills (need : Nat) (xs : List α) :
    ∀ fill ∈ (consume supply refused need xs).fills,
      fill.1 ∈ xs ∧ refused fill.1 = false ∧ fill.2 ≤ supply.qty fill.1 := by
  induction need, xs using consume_cases supply refused with
  | empty | met | stopped => simp
  | part need x xs wanted accepted left => simp [accepted, Nat.le_of_lt left]
  | all need x xs later wanted accepted exhausted ih =>
      intro fill member
      rcases List.mem_cons.mp member with rfl | member
      next => simp [accepted]
      next =>
        obtain ⟨inside, rest⟩ := ih fill member
        exact ⟨List.mem_cons_of_mem x inside, rest⟩

theorem forall_fills_iff {p : α → Prop} (need : Nat) (xs : List α) :
    (∀ fill ∈ (consume supply refused need xs).fills, p fill.1) ↔
      ∀ before x after, eligible refused xs = before ++ x :: after →
        (before.map supply.qty).sum < need → p x := by
  induction need, xs using consume_cases supply refused with
  | empty need => simp [eligible]
  | met xs => simp
  | stopped need x xs stops => simp [eligible, stops]
  | part need x xs wanted accepted left =>
      simp only [eligible, List.takeWhile_cons, accepted, Bool.not_false, if_true,
        List.forall_mem_singleton]
      constructor
      next =>
        intro first before y after split less
        cases before with
        | nil => exact (List.cons.inj split).1 ▸ first
        | cons z before =>
            obtain ⟨rfl, -⟩ := List.cons.inj split
            simp only [List.map_cons, List.sum_cons] at less
            omega
      next =>
        intro all
        exact all [] x _ rfl wanted
  | all need x xs later wanted accepted exhausted ih =>
      simp only [eligible, List.takeWhile_cons, accepted, Bool.not_false, if_true] at ih ⊢
      rw [List.forall_mem_cons, ih]
      constructor
      next =>
        rintro ⟨first, rest⟩ before y after split less
        cases before with
        | nil => exact (List.cons.inj split).1 ▸ first
        | cons z before =>
            obtain ⟨rfl, tail⟩ := List.cons.inj split
            simp only [List.map_cons, List.sum_cons] at less
            exact rest before y after tail (by omega)
      next =>
        intro all
        refine ⟨all [] x _ rfl wanted, ?_⟩
        intro before y after split less
        refine all (x :: before) y after (by rw [split]; rfl) ?_
        simp only [List.map_cons, List.sum_cons]
        omega

theorem fills_positive (need : Nat) (xs : List α) (stocked : ∀ x ∈ xs, 0 < supply.qty x) :
    ∀ fill ∈ (consume supply refused need xs).fills, 0 < fill.2 := by
  revert stocked
  induction need, xs using consume_cases supply refused with
  | empty | met | stopped => simp
  | part need x xs wanted => simp [wanted]
  | all need x xs later _ _ _ ih =>
      intro stocked
      obtain ⟨first, rest⟩ := List.forall_mem_cons.mp stocked
      exact List.forall_mem_cons.mpr ⟨first, ih rest⟩

-- A front part of the queue is used up; behind it at most one supply is drawn on and left.
theorem consume_split (need : Nat) (xs : List α) :
    (∃ hit after, xs = hit ++ after ∧
      (consume supply refused need xs).fills = hit.map (fun x => (x, supply.qty x)) ∧
      (consume supply refused need xs).rest = after) ∨
    (∃ hit last after n, xs = hit ++ last :: after ∧ 0 < n ∧ n < supply.qty last ∧
      (consume supply refused need xs).fills = hit.map (fun x => (x, supply.qty x)) ++ [(last, n)] ∧
      (consume supply refused need xs).rest = supply.reduce last n :: after) := by
  induction need, xs using consume_cases supply refused with
  | empty need => exact Or.inl ⟨[], [], rfl, rfl, rfl⟩
  | met xs => exact Or.inl ⟨[], xs, rfl, rfl, rfl⟩
  | stopped need x xs => exact Or.inl ⟨[], x :: xs, rfl, rfl, rfl⟩
  | part need x xs wanted _ left => exact Or.inr ⟨[], x, xs, need, rfl, wanted, left, rfl, rfl⟩
  | all need x xs later _ _ _ ih =>
      rcases ih with ⟨hit, after, queue, fills, rest⟩ |
        ⟨hit, last, after, n, queue, some, left, fills, rest⟩
      next => exact Or.inl ⟨x :: hit, after, by rw [queue]; rfl, by rw [fills]; rfl, rest⟩
      next =>
        exact Or.inr ⟨x :: hit, last, after, n, by rw [queue]; rfl, some, left, by rw [fills]; rfl,
          rest⟩

variable (supply refused) in
theorem consume_total (need : Nat) (xs : List α) :
    ((consume supply refused need xs).fills.map Prod.snd).sum =
      min need ((eligible refused xs).map supply.qty).sum := by
  induction need, xs using consume_cases supply refused with
  | empty | met => simp [eligible]
  | stopped need x xs stops => simp [eligible, stops]
  | part need x xs wanted accepted left =>
      simp only [eligible, List.takeWhile_cons, accepted, Bool.not_false, if_true, List.map_cons,
        List.sum_cons, List.map_nil, List.sum_nil]
      omega
  | all need x xs later wanted accepted exhausted ih =>
      simp only [eligible, List.takeWhile_cons, accepted, Bool.not_false, if_true, List.map_cons,
        List.sum_cons] at ih ⊢
      omega

theorem eligible_eq_filter (xs : List α)
    (closed : xs.Pairwise fun a b => refused a = true → refused b = true) :
    eligible refused xs = xs.filter fun x => !refused x := by
  induction xs with
  | nil => rfl
  | cons x xs ih =>
      obtain ⟨first, rest⟩ := List.pairwise_cons.mp closed
      cases stops : refused x with
      | false => simpa [eligible, stops] using ih rest
      | true =>
          have none : ∀ y ∈ xs, refused y = true := fun y member => first y member stops
          simpa [eligible, stops] using none

theorem forall_mem_rest {p : α → Prop} (need : Nat) (xs : List α) (start : ∀ x ∈ xs, p x)
    (keeps : ∀ x n, p x → n < supply.qty x → p (supply.reduce x n)) :
    ∀ x ∈ (consume supply refused need xs).rest, p x := by
  revert start
  induction need, xs using consume_cases supply refused with
  | empty | met | stopped => exact id
  | part need x xs _ _ left =>
      intro start
      rw [List.forall_mem_cons] at start ⊢
      exact ⟨keeps x need start.1 left, start.2⟩
  | all need x xs later _ _ _ ih =>
      intro start
      exact ih (List.forall_mem_cons.mp start).2

theorem pairwise_rest {r : α → α → Prop} (need : Nat) (xs : List α) (start : xs.Pairwise r)
    (keeps : ∀ x n y, r x y → r (supply.reduce x n) y) :
    (consume supply refused need xs).rest.Pairwise r := by
  revert start
  induction need, xs using consume_cases supply refused with
  | empty | met | stopped => exact id
  | part need x xs =>
      intro start
      rw [List.pairwise_cons] at start ⊢
      exact ⟨fun y member => keeps x need y (start.1 y member), start.2⟩
  | all need x xs later _ _ _ ih =>
      intro start
      exact ih (List.pairwise_cons.mp start).2

end Consume
