import HftFixEngine.Networking.Dataset

set_option autoImplicit false

namespace HftFixEngine.Networking

open Protocol Words

namespace UdpFixProducer

-- The largest `size_t`.
abbrev npos : Nat := 2 ^ 64 - 1

structure ViewLoad where
  start : Nat
  loaded : List Bytes

def beforeEnd (view : Bytes) (load : ViewLoad) : Bool := load.start < view.length

def loadRun (view : Bytes) (load : ViewLoad) : ViewLoad :=
  let found := (findFirstOf view lineBreaks load.start).getD npos
  let stop := if found = npos then view.length else found
  { start := (findFirstNotOf view lineBreaks stop).getD npos
    loaded :=
      if stop > load.start then load.loaded ++ [field view load.start (stop - load.start)]
      else load.loaded }

def LineLoad.numbered (load : LineLoad) : ViewLoad where
  start := load.start.getD npos
  loaded := load.loaded

section Numbered

variable {view : Bytes}

theorem beforeEnd_numbered (short : view.length ≤ npos) (load : LineLoad) :
    beforeEnd view load.numbered = inView view load := by
  obtain ⟨start, loaded⟩ := load
  cases start with
  | some start => rfl
  | none => exact decide_eq_false (Nat.not_lt_of_le short)

theorem findFirstOf_lt {pos found : Nat}
    (here : findFirstOf view lineBreaks pos = some found) : found < view.length := by
  obtain ⟨ahead, index, rfl⟩ := Option.map_eq_some_iff.mp here
  obtain ⟨within, -⟩ := List.findIdx?_eq_some_iff_getElem.mp index
  rw [List.length_drop] at within
  omega

theorem find_atEnd {pos : Nat} (past : view.length ≤ pos) :
    findFirstOf view lineBreaks pos = none ∧ findFirstNotOf view lineBreaks pos = none := by
  simp [findFirstOf, findFirstNotOf, List.drop_eq_nil_of_le past]

theorem stop_numbered (short : view.length ≤ npos) (pos : Nat) :
    (if (findFirstOf view lineBreaks pos).getD npos = npos then view.length
      else (findFirstOf view lineBreaks pos).getD npos) =
      (findFirstOf view lineBreaks pos).getD view.length := by
  cases here : findFirstOf view lineBreaks pos with
  | none => simp
  | some found =>
    have inside := findFirstOf_lt here
    rw [Option.getD_some, Option.getD_some, if_neg (by omega)]

theorem loadRun_numbered (short : view.length ≤ npos) (load : LineLoad) :
    loadRun view load.numbered = (loadLine view load).numbered := by
  obtain ⟨start, loaded⟩ := load
  simp only [loadRun, stop_numbered short]
  cases start with
  | some start => rfl
  | none =>
    simp only [LineLoad.numbered, Option.getD_none, loadLine, (find_atEnd short).1,
      (find_atEnd (Nat.le_refl view.length)).2]
    rw [if_neg (Nat.not_lt_of_le short)]

end Numbered

-- The loop ends, after no more rounds than there are bytes, and it has loaded the maximal runs of
-- bytes other than line breaks, one after another. With numbers for positions it is the same loop.
theorem loadedMessages_runs (file : Dataset) (text : isBinary file = false) :
    let view := file.content
    (∀ rounds, view.length ≤ rounds →
      let last := Loop.run (inView view) (loadLine view) rounds { start := some 0, loaded := [] }
      inView view last = false ∧ last.loaded = loadedMessages file ∧
        (view.length ≤ npos →
          Loop.run (beforeEnd view) (loadRun view) rounds { start := 0, loaded := [] } =
            last.numbered ∧ beforeEnd view last.numbered = false)) ∧
    ∃ runs : List (Nat × Nat),
      loadedMessages file = runs.map (fun run => field view run.1 (run.2 - run.1)) ∧
      runs.Pairwise (fun run later => run.2 < later.1) ∧
      ∀ run, run ∈ runs ↔ MaximalRun isBreak view run.1 run.2 := by
  intro view
  have loaded : loadedMessages file = (Loop.run (inView view) (loadLine view) view.length
      { start := some 0, loaded := [] }).loaded := by
    rw [loadedMessages, if_neg (by simp [text])]
  constructor
  next =>
    intro rounds enough last
    have same : last = Loop.run (inView view) (loadLine view) view.length
        { start := some 0, loaded := [] } := Loop.run_stable (loadLines_ends view) enough
    have ended : inView view last = false := by
      rw [same]
      exact loadLines_ends view
    refine ⟨ended, by rw [loaded, same], ?_⟩
    intro short
    have numbered := Loop.run_map LineLoad.numbered (beforeEnd_numbered short)
      (loadRun_numbered short) rounds { start := some 0, loaded := [] }
    exact ⟨numbered, (beforeEnd_numbered short last).trans ended⟩
  next =>
    rw [loaded, loadLines_eq]
    exact words_runs isBreak view

def mixedBreaks : Dataset where
  path := ascii "feed.txt"
  content := ascii "\n8=A\r\r\n\n8=B\r"
  named := by decide +kernel
  long := by decide +kernel

theorem loadedMessages_runs_mixedBreaks :
    isBinary mixedBreaks = false ∧ loadedMessages mixedBreaks = [ascii "8=A", ascii "8=B"] ∧
      ∃ runs : List (Nat × Nat), runs.length = 2 ∧
        ∀ run, run ∈ runs ↔ MaximalRun isBreak mixedBreaks.content run.1 run.2 := by
  have text : isBinary mixedBreaks = false := by decide +kernel
  have loaded : loadedMessages mixedBreaks = [ascii "8=A", ascii "8=B"] := by decide +kernel
  obtain ⟨-, runs, messages, -, all⟩ := loadedMessages_runs mixedBreaks text
  rw [loaded] at messages
  refine ⟨text, loaded, runs, ?_, all⟩
  simpa using (congrArg List.length messages).symm

end UdpFixProducer

end HftFixEngine.Networking
