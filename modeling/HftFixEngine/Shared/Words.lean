import Mathlib.Data.List.TakeWhile

set_option autoImplicit false

namespace Words

variable {α : Type} {separates inner : α → Bool} {word : List α}

def words (separates : α → Bool) (text : List α) : List (List α) :=
  (text.splitOnP separates).filter fun word => !word.isEmpty

def restarts (separates : α → Bool) : List α → Nat
  | x :: y :: rest =>
    (if separates x && !separates y then 1 else 0) + restarts separates (y :: rest)
  | _ => 0

def gaps (separates : α → Bool) (text : List α) : Nat :=
  restarts separates (text.dropWhile separates)

@[simp] theorem words_nil : words separates ([] : List α) = [] := by
  simp [words]

theorem words_append_cons (text rest : List α) {x : α} (separator : separates x = true) :
    words separates (text ++ x :: rest) = words separates text ++ words separates rest := by
  rw [words, List.splitOnP_append_cons text rest separator, List.filter_append]
  rfl

theorem words_cons (rest : List α) {x : α} (separator : separates x = true) :
    words separates (x :: rest) = words separates rest := by
  simpa using words_append_cons [] rest separator

theorem words_clear (clear : ∀ x, x ∈ word → separates x = false) :
    words separates word = if word = [] then [] else [word] := by
  rw [words, List.splitOnP_eq_singleton clear]
  cases word <;> rfl

theorem outside_of_dropWhile {inside : α → Bool} {x : α} {text rest : List α}
    (left : text.dropWhile inside = x :: rest) : inside x = false := by
  have stops := List.head?_dropWhile_not inside text
  rw [left] at stops
  simpa using stops

theorem drop_takeWhile (inside : α → Bool) (text : List α) :
    text.drop (text.takeWhile inside).length = text.dropWhile inside := by
  calc text.drop (text.takeWhile inside).length
    _ = (text.takeWhile inside ++ text.dropWhile inside).drop (text.takeWhile inside).length := by
        rw [List.takeWhile_append_dropWhile]
    _ = text.dropWhile inside := List.drop_left

theorem words_first (text : List α) :
    words separates text =
      words separates (text.takeWhile fun x => !separates x) ++
        words separates (text.dropWhile fun x => !separates x) := by
  have whole := List.takeWhile_append_dropWhile (p := fun x => !separates x) (l := text)
  cases left : text.dropWhile fun x => !separates x with
  | nil =>
    rw [left, List.append_nil] at whole
    rw [whole, words_nil, List.append_nil]
  | cons x rest =>
    have separator : separates x = true := by simpa using outside_of_dropWhile left
    rw [left] at whole
    rw [words_cons rest separator, ← words_append_cons _ rest separator, whole]

theorem words_after (text : List α) :
    words separates (text.dropWhile fun x => !separates x) =
      words separates (text.drop ((text.takeWhile fun x => !separates x).length + 1)) := by
  rw [← List.drop_drop, drop_takeWhile]
  cases left : text.dropWhile fun x => !separates x with
  | nil => rfl
  | cons x rest => exact words_cons rest (by simpa using outside_of_dropWhile left)

theorem words_skip (text : List α) :
    words separates (text.dropWhile separates) = words separates text := by
  induction text with
  | nil => rfl
  | cons x text ih =>
    rw [List.dropWhile_cons]
    split
    next separator => rw [ih, words_cons text separator]
    next => rfl

theorem skip_shorter {text : List α} (some : text ≠ []) :
    ((text.dropWhile fun x => !separates x).dropWhile separates).length < text.length := by
  cases text with
  | nil => exact absurd rfl some
  | cons x text =>
    cases separator : separates x with
    | true =>
      simp only [List.dropWhile_cons, separator, Bool.not_true, Bool.false_eq_true, if_false, if_true]
      exact Nat.lt_succ_of_le (List.dropWhile_sublist separates).length_le
    | false =>
      simp only [List.dropWhile_cons, separator, Bool.not_false, if_true]
      exact Nat.lt_succ_of_le (((List.dropWhile_sublist separates).trans
        (List.dropWhile_sublist _)).length_le)

theorem splitOnP_or (text : List α) :
    text.splitOnP (fun x => separates x || inner x) =
      (text.splitOnP separates).flatMap fun word => word.splitOnP inner := by
  induction text with
  | nil => simp
  | cons x text ih =>
    obtain ⟨word, later, here⟩ := List.exists_cons_of_ne_nil (List.splitOnP_ne_nil separates text)
    rw [here, List.flatMap_cons] at ih
    rw [List.splitOnP_cons_eq_if_modifyHead, List.splitOnP_cons_eq_if_modifyHead, ih, here]
    cases separates x with
    | true => simp
    | false =>
      obtain ⟨piece, pieces, inside⟩ := List.exists_cons_of_ne_nil (List.splitOnP_ne_nil inner word)
      cases fine : inner x <;> simp [List.splitOnP_cons_eq_if_modifyHead, fine, inside]

theorem words_or (text : List α) :
    words (fun x => separates x || inner x) text =
      (words separates text).flatMap (words inner) := by
  rw [words, splitOnP_or, words]
  induction text.splitOnP separates with
  | nil => rfl
  | cons word later ih =>
    rw [List.flatMap_cons, List.filter_append, ih]
    cases word with
    | nil => simp
    | cons x word => simp [words]

theorem length_words_longer {x y : α} (text : List α) (first : separates x = false)
    (second : separates y = false) :
    (words separates (x :: y :: text)).length = (words separates (y :: text)).length := by
  obtain ⟨word, later, here⟩ := List.exists_cons_of_ne_nil (List.splitOnP_ne_nil separates text)
  simp [words, List.splitOnP_cons_eq_if_modifyHead, first, second, here]

theorem length_words_cons (x : α) (text : List α) :
    (words separates (x :: text)).length =
      (if separates x then 0 else 1) + restarts separates (x :: text) := by
  induction text generalizing x with
  | nil =>
    cases separator : separates x <;>
      simp [words, List.splitOnP_cons_eq_if_modifyHead, separator, restarts]
  | cons y text ih =>
    rw [restarts]
    cases first : separates x with
    | true =>
      rw [words_cons _ first, ih y]
      cases separates y <;> simp
    | false =>
      cases second : separates y with
      | true =>
        have ahead : words separates (x :: y :: text) = [x] :: words separates (y :: text) := by
          rw [words_cons text second, ← List.singleton_append, words_append_cons [x] text second,
            words_clear (by simpa using first)]
          rfl
        rw [ahead, List.length_cons, ih y]
        simp [second, Nat.add_comm]
      | false =>
        rw [length_words_longer text first second, ih y]
        simp [second]

theorem length_words (text : List α) :
    (words separates text).length + (if text.all separates then 1 else 0) =
      1 + gaps separates text := by
  rw [gaps, ← words_skip]
  cases left : text.dropWhile separates with
  | nil =>
    have all : text.all separates = true := by
      rw [List.all_eq_true]
      exact List.dropWhile_eq_nil_iff.mp left
    simp [all, restarts]
  | cons x rest =>
    have other := outside_of_dropWhile left
    have mixed : text.all separates = false := by
      rw [List.all_eq_false]
      refine ⟨x, ?_, by simp [other]⟩
      exact (List.dropWhile_sublist separates).subset (left ▸ List.mem_cons_self)
    rw [length_words_cons, other, mixed]
    simp

structure MaximalRun (separates : α → Bool) (text : List α) (start stop : Nat) : Prop where
  nonempty : start < stop
  inside : stop ≤ text.length
  clear : ∀ i x, start ≤ i → i < stop → text[i]? = some x → separates x = false
  opened : ∀ i x, i + 1 = start → text[i]? = some x → separates x = true
  closed : ∀ x, text[stop]? = some x → separates x = true

section Runs

variable {text : List α} {start : Nat}

def stopFrom (separates : α → Bool) (text : List α) (start : Nat) : Nat :=
  start + ((text.drop start).takeWhile fun x => !separates x).length

theorem le_stopFrom : start ≤ stopFrom separates text start :=
  Nat.le_add_right _ _

theorem stopFrom_le (within : start ≤ text.length) :
    stopFrom separates text start ≤ text.length := by
  have shorter := (List.takeWhile_prefix (l := text.drop start) fun x => !separates x).length_le
  rw [List.length_drop] at shorter
  unfold stopFrom
  omega

theorem clear_stopFrom {i : Nat} {x : α} (above : start ≤ i)
    (below : i < stopFrom separates text start) (here : text[i]? = some x) :
    separates x = false := by
  obtain ⟨k, rfl⟩ := Nat.exists_eq_add_of_le above
  have short : k < ((text.drop start).takeWhile fun x => !separates x).length := by
    unfold stopFrom at below
    omega
  have kept := (List.takeWhile_prefix (l := text.drop start) fun x => !separates x).getElem short
  have found : ((text.drop start).takeWhile fun x => !separates x)[k] = x := by
    rw [kept, List.getElem_drop]
    exact (List.getElem?_eq_some_iff.mp here).2
  simpa [found] using List.mem_takeWhile_imp (List.getElem_mem short)

theorem separates_stopFrom {x : α} (here : text[stopFrom separates text start]? = some x) :
    separates x = true := by
  have behind : ((text.drop start).dropWhile fun x => !separates x).head? = some x := by
    rw [← drop_takeWhile, List.head?_drop, List.getElem?_drop]
    exact here
  obtain ⟨rest, left⟩ := List.head?_eq_some_iff.mp behind
  simpa using outside_of_dropWhile left

theorem maximalRun_stopFrom (within : start ≤ text.length)
    (boundary : ∀ i x, i + 1 = start → text[i]? = some x → separates x = true)
    (nonempty : start < stopFrom separates text start) :
    MaximalRun separates text start (stopFrom separates text start) where
  nonempty := nonempty
  inside := stopFrom_le within
  clear _ _ above below := clear_stopFrom above below
  opened := boundary
  closed _ := separates_stopFrom

theorem MaximalRun.eq_stopFrom {first last : Nat} (run : MaximalRun separates text first last)
    (within : start ≤ text.length) (above : start ≤ first)
    (below : first ≤ stopFrom separates text start) :
    first = start ∧ last = stopFrom separates text start := by
  have nonempty := run.nonempty
  have inside := run.inside
  have stop_le : stopFrom separates text start ≤ text.length := stopFrom_le within
  -- The stop is a separator or the end, so no run contains it.
  have outside :
      ¬ (first ≤ stopFrom separates text start ∧ stopFrom separates text start < last) := by
    rintro ⟨left, right⟩
    have here := List.getElem?_eq_getElem (Nat.lt_of_lt_of_le right inside)
    have clear := run.clear _ _ left right here
    rw [separates_stopFrom here] at clear
    cases clear
  constructor
  next =>
    by_contra other
    have here := List.getElem?_eq_getElem (by omega : first - 1 < text.length)
    have clear : separates text[first - 1] = false :=
      clear_stopFrom (by omega : start ≤ first - 1) (by omega) here
    rw [run.opened _ _ (by omega) here] at clear
    cases clear
  next =>
    by_contra other
    have here := List.getElem?_eq_getElem (by omega : last < text.length)
    have clear : separates text[last] = false :=
      clear_stopFrom (by omega : start ≤ last) (by omega) here
    rw [run.closed _ here] at clear
    cases clear

theorem maximalRun_iff (within : start ≤ text.length)
    (boundary : ∀ i x, i + 1 = start → text[i]? = some x → separates x = true)
    (run : Nat × Nat) :
    MaximalRun separates text run.1 run.2 ∧ start ≤ run.1 ↔
      (start < stopFrom separates text start ∧ run = (start, stopFrom separates text start)) ∨
        MaximalRun separates text run.1 run.2 ∧ stopFrom separates text start + 1 ≤ run.1 := by
  have order : start ≤ stopFrom separates text start := le_stopFrom
  obtain ⟨first, last⟩ := run
  constructor
  next =>
    rintro ⟨run, above⟩
    by_cases below : first ≤ stopFrom separates text start
    next =>
      obtain ⟨atStart, atStop⟩ := run.eq_stopFrom within above below
      refine .inl ⟨?_, Prod.ext atStart atStop⟩
      rw [← atStop, ← atStart]
      exact run.nonempty
    next => exact .inr ⟨run, Nat.lt_of_not_le below⟩
  next =>
    rintro (⟨nonempty, here⟩ | ⟨run, later⟩)
    next =>
      cases here
      exact ⟨maximalRun_stopFrom within boundary nonempty, Nat.le_refl _⟩
    next => exact ⟨run, Nat.le_trans order (Nat.le_of_succ_le later)⟩

theorem drop_stopFrom (separates : α → Bool) (text : List α) (start : Nat) :
    text.drop (stopFrom separates text start) =
      (text.drop start).dropWhile fun x => !separates x := by
  rw [stopFrom, ← List.drop_drop, drop_takeWhile]

theorem words_stopFrom (separates : α → Bool) (text : List α) (start : Nat) :
    words separates (text.drop (stopFrom separates text start)) =
      words separates (text.drop (stopFrom separates text start + 1)) := by
  rw [drop_stopFrom, words_after, List.drop_drop]
  rfl

theorem words_drop (separates : α → Bool) (text : List α) (start : Nat) :
    words separates (text.drop start) =
      (if start < stopFrom separates text start then
        [(text.drop start).take (stopFrom separates text start - start)] else []) ++
        words separates (text.drop (stopFrom separates text start)) := by
  have length : stopFrom separates text start - start =
      ((text.drop start).takeWhile fun x => !separates x).length := Nat.add_sub_cancel_left _ _
  have word : (text.drop start).take (stopFrom separates text start - start) =
      (text.drop start).takeWhile fun x => !separates x := by
    rw [length]
    exact (List.prefix_iff_eq_take.mp (List.takeWhile_prefix _)).symm
  have clear : ∀ x, x ∈ (text.drop start).takeWhile (fun x => !separates x) →
      separates x = false := by
    intro x member
    simpa using List.mem_takeWhile_imp member
  have empty : start < stopFrom separates text start ↔
      ¬ (text.drop start).takeWhile (fun x => !separates x) = [] := by
    rw [← List.length_eq_zero_iff, ← length]
    omega
  rw [words_first, drop_stopFrom, words_clear clear, word]
  simp only [empty, ite_not]

theorem words_drop_runs (separates : α → Bool) (text : List α) (start : Nat)
    (boundary : ∀ i x, i + 1 = start → text[i]? = some x → separates x = true) :
    ∃ runs : List (Nat × Nat),
      words separates (text.drop start) =
        runs.map (fun run => (text.drop run.1).take (run.2 - run.1)) ∧
      runs.Pairwise (fun run later => run.2 < later.1) ∧
      ∀ run, run ∈ runs ↔ MaximalRun separates text run.1 run.2 ∧ start ≤ run.1 := by
  by_cases within : start < text.length
  next =>
    have next := maximalRun_iff (Nat.le_of_lt within) boundary
    have split := words_drop separates text start
    rw [words_stopFrom] at split
    obtain ⟨later, words_eq, sorted, all⟩ :=
      words_drop_runs separates text (stopFrom separates text start + 1) (by
        intro i x atStop here
        obtain rfl : i = stopFrom separates text start := by omega
        exact separates_stopFrom here)
    rw [words_eq] at split
    by_cases some : start < stopFrom separates text start
    next =>
      rw [if_pos some] at split
      refine ⟨(start, stopFrom separates text start) :: later, split, ?_, ?_⟩
      next =>
        refine List.pairwise_cons.mpr ⟨?_, sorted⟩
        intro run member
        exact ((all run).mp member).2
      next =>
        intro run
        rw [List.mem_cons, all, next run]
        exact or_congr_left (iff_and_self.mpr fun _ => some)
    next =>
      rw [if_neg some] at split
      refine ⟨later, split, sorted, ?_⟩
      intro run
      rw [all, next run, or_iff_right]
      exact fun first => some first.1
  next =>
    refine ⟨[], ?_, List.Pairwise.nil, ?_⟩
    next =>
      rw [List.drop_eq_nil_of_le (by omega)]
      rfl
    next =>
      intro run
      simp only [List.not_mem_nil, false_iff]
      rintro ⟨run, above⟩
      have nonempty := run.nonempty
      have inside := run.inside
      omega
termination_by text.length - start
decreasing_by
  have onward : start ≤ stopFrom separates text start := le_stopFrom
  omega

theorem words_runs (separates : α → Bool) (text : List α) :
    ∃ runs : List (Nat × Nat),
      words separates text = runs.map (fun run => (text.drop run.1).take (run.2 - run.1)) ∧
      runs.Pairwise (fun run later => run.2 < later.1) ∧
      ∀ run, run ∈ runs ↔ MaximalRun separates text run.1 run.2 := by
  obtain ⟨runs, words_eq, sorted, all⟩ := words_drop_runs separates text 0 (by simp)
  refine ⟨runs, words_eq, sorted, ?_⟩
  simpa using all

end Runs

end Words
