import HftFixEngine.Protocol.SequenceGapDetector
import Mathlib.Data.List.Nodup
import Mathlib.Algebra.BigOperators.Group.List.Basic
import Mathlib.Algebra.Ring.Nat

set_option autoImplicit false

namespace HftFixEngine.Protocol

open Word

namespace SequenceGap

def Holds (gap : SequenceGap) (number : Nat) : Prop :=
  gap.beginSeq ≤ number ∧ number ≤ gap.endSeq

instance (number : Nat) : DecidablePred fun gap : SequenceGap => gap.Holds number :=
  fun _ => inferInstanceAs (Decidable (_ ∧ _))

def span (gap : SequenceGap) : Nat :=
  gap.endSeq + 1 - gap.beginSeq

end SequenceGap

structure Partitioned (first : Nat) (accepted : List Nat) (gaps : List SequenceGap) (next : Nat) :
    Prop where
  covered : ∀ number, (number ∈ accepted ∨ ∃ gap ∈ gaps, gap.Holds number) ↔
    first ≤ number ∧ number < next
  apart : ∀ number, number ∈ accepted → ∀ gap, gap ∈ gaps → ¬ gap.Holds number
  increasing : accepted.Pairwise (· < ·)
  nonempty : ∀ gap, gap ∈ gaps → gap.beginSeq ≤ gap.endSeq
  ordered : gaps.Pairwise fun earlier later => earlier.endSeq < later.beginSeq
  total : first + accepted.length + (gaps.map SequenceGap.span).sum = next

namespace Partitioned

variable {first next : Nat} {accepted : List Nat} {gaps : List SequenceGap}

theorem empty (first : Nat) : Partitioned first [] [] first := by
  constructor
  all_goals simp

theorem accepted_lt (partition : Partitioned first accepted gaps next) {number : Nat}
    (taken : number ∈ accepted) : number < next :=
  ((partition.covered number).mp (.inl taken)).2

theorem gap_lt (partition : Partitioned first accepted gaps next) {gap : SequenceGap}
    (reported : gap ∈ gaps) : gap.endSeq < next := by
  have holds : gap.Holds gap.endSeq := ⟨partition.nonempty gap reported, Nat.le_refl _⟩
  exact ((partition.covered gap.endSeq).mp (.inr ⟨gap, reported, holds⟩)).2

theorem gaps_length_le (partition : Partitioned first accepted gaps next) :
    gaps.length ≤ (gaps.map SequenceGap.span).sum := by
  have positive : ∀ span, span ∈ gaps.map SequenceGap.span → 1 ≤ span := by
    intro span member
    obtain ⟨gap, reported, rfl⟩ := List.mem_map.mp member
    have nonempty := partition.nonempty gap reported
    unfold SequenceGap.span
    omega
  simpa using List.length_le_sum_of_one_le _ positive

theorem accept (partition : Partitioned first accepted gaps next) :
    Partitioned first (accepted ++ [next]) gaps (next + 1) := by
  have total := partition.total
  constructor
  case covered =>
    intro number
    have before := partition.covered number
    rw [List.mem_append, List.mem_singleton]
    constructor
    next =>
      rintro ((taken | rfl) | missing)
      next =>
        have bound := before.mp (.inl taken)
        omega
      next => omega
      next =>
        have bound := before.mp (.inr missing)
        omega
    next =>
      rintro ⟨above, below⟩
      by_cases last : number = next
      next => exact .inl (.inr last)
      next =>
        rcases before.mpr ⟨above, by omega⟩ with taken | missing
        next => exact .inl (.inl taken)
        next => exact .inr missing
  case apart =>
    intro number taken gap reported holds
    rw [List.mem_append, List.mem_singleton] at taken
    rcases taken with old | rfl
    next => exact partition.apart number old gap reported holds
    next =>
      have bound := partition.gap_lt reported
      have upper := holds.2
      omega
  case increasing =>
    rw [List.pairwise_append]
    refine ⟨partition.increasing, List.pairwise_singleton _ _, ?_⟩
    intro number taken last isLast
    have bound := partition.accepted_lt taken
    rw [List.mem_singleton] at isLast
    omega
  case nonempty => exact partition.nonempty
  case ordered => exact partition.ordered
  case total =>
    rw [List.length_append, List.length_singleton]
    omega

theorem report (partition : Partitioned first accepted gaps next) {seq : Nat} (above : next < seq)
    (missingCount : Nat) :
    Partitioned first accepted (gaps ++ [⟨next, seq - 1, missingCount⟩]) seq := by
  have total := partition.total
  constructor
  case covered =>
    intro number
    have before := partition.covered number
    simp only [List.mem_append, List.mem_singleton]
    constructor
    next =>
      rintro (taken | ⟨gap, old | rfl, holds⟩)
      next =>
        have bound := before.mp (.inl taken)
        omega
      next =>
        have bound := before.mp (.inr ⟨gap, old, holds⟩)
        omega
      next =>
        have lower : next ≤ number := holds.1
        have upper : number ≤ seq - 1 := holds.2
        omega
    next =>
      rintro ⟨fromFirst, below⟩
      by_cases jumped : next ≤ number
      next =>
        have upper : number ≤ seq - 1 := by omega
        exact .inr ⟨⟨next, seq - 1, missingCount⟩, .inr rfl, jumped, upper⟩
      next =>
        rcases before.mpr ⟨fromFirst, by omega⟩ with taken | ⟨gap, old, holds⟩
        next => exact .inl taken
        next => exact .inr ⟨gap, .inl old, holds⟩
  case apart =>
    intro number taken gap reported holds
    rw [List.mem_append, List.mem_singleton] at reported
    rcases reported with old | rfl
    next => exact partition.apart number taken gap old holds
    next =>
      have bound := partition.accepted_lt taken
      have lower : next ≤ number := holds.1
      omega
  case increasing => exact partition.increasing
  case nonempty =>
    intro gap reported
    rw [List.mem_append, List.mem_singleton] at reported
    rcases reported with old | rfl
    next => exact partition.nonempty gap old
    next =>
      simp only
      omega
  case ordered =>
    rw [List.pairwise_append]
    refine ⟨partition.ordered, List.pairwise_singleton _ _, ?_⟩
    intro gap old last isLast
    rw [List.mem_singleton.mp isLast]
    exact partition.gap_lt old
  case total =>
    simp only [List.map_append, List.map_cons, List.map_nil, List.sum_append, List.sum_cons,
      List.sum_nil, SequenceGap.span]
    omega

theorem once (partition : Partitioned first accepted gaps next) {number : Nat}
    (above : first ≤ number) (below : number < next) :
    (accepted.count number = 1 ∧ gaps.countP (fun gap => gap.Holds number) = 0) ∨
      (accepted.count number = 0 ∧ gaps.countP (fun gap => gap.Holds number) = 1) := by
  have nodup : accepted.Nodup := partition.increasing.imp Nat.ne_of_lt
  rcases (partition.covered number).mpr ⟨above, below⟩ with taken | ⟨gap, reported, holds⟩
  next =>
    left
    refine ⟨List.count_eq_one_of_mem nodup taken, ?_⟩
    rw [List.countP_eq_zero]
    intro gap reported
    simpa using partition.apart number taken gap reported
  next =>
    right
    constructor
    next =>
      rw [List.count_eq_zero]
      intro taken
      exact partition.apart number taken gap reported holds
    next =>
      -- The gaps before and after this one end below it and begin above it.
      obtain ⟨earlier, later, rfl⟩ := List.append_of_mem reported
      have ordered := partition.ordered
      rw [List.pairwise_append, List.pairwise_cons] at ordered
      have earlierMiss : earlier.countP (fun gap => gap.Holds number) = 0 := by
        rw [List.countP_eq_zero]
        intro other member
        have before := ordered.2.2 other member gap (by simp)
        have lower := holds.1
        simp only [decide_eq_true_eq]
        rintro ⟨-, upper⟩
        omega
      have laterMiss : later.countP (fun gap => gap.Holds number) = 0 := by
        rw [List.countP_eq_zero]
        intro other member
        have after := ordered.2.1.1 other member
        have upper := holds.2
        simp only [decide_eq_true_eq]
        rintro ⟨lower, -⟩
        omega
      rw [List.countP_append, List.countP_cons, earlierMiss, laterMiss]
      simp [holds]

end Partitioned

namespace SequenceGapDetector

theorem processSequence_cases (detector : SequenceGapDetector) (seq : Nat) (small : seq < 2 ^ 64 - 1) :
    (seq = detector.expectedSeq ∧
      detector.processSequence seq =
        ({ status := .inSequence }, { detector with expectedSeq := seq + 1 })) ∨
    (detector.expectedSeq < seq ∧
      detector.processSequence seq =
        ({ status := .gapDetected
           gap := ⟨detector.expectedSeq, seq - 1, seq - detector.expectedSeq⟩ },
          { detector with
            gapsDetected := u64 (detector.gapsDetected + 1)
            packetsLost := u64 (detector.packetsLost + (seq - detector.expectedSeq))
            expectedSeq := seq + 1 })) ∨
    (seq < detector.expectedSeq ∧
      detector.processSequence seq =
        ({ status := .duplicate },
          { detector with duplicatesCount := u64 (detector.duplicatesCount + 1) })) := by
  have next : u64 (seq + 1) = seq + 1 := by
    unfold u64
    omega
  rcases Nat.lt_trichotomy seq detector.expectedSeq with below | same | above
  next =>
    right
    right
    have different : ¬ seq = detector.expectedSeq := by omega
    have notAbove : ¬ seq > detector.expectedSeq := by omega
    simp [processSequence, different, notAbove, below]
  next =>
    left
    simp [processSequence, ← same, next]
  next =>
    right
    left
    have different : ¬ seq = detector.expectedSeq := by omega
    simp [processSequence, different, above, next]

structure Checked where
  expected : Nat
  seq : Nat
  result : GapCheckResult
  deriving DecidableEq, Repr

structure Watch where
  detector : SequenceGapDetector
  history : List Checked := []
  deriving DecidableEq, Repr

namespace Watch

def startingAt (initialExpected : Nat) : Watch :=
  { detector := { expectedSeq := initialExpected } }

def process (watch : Watch) (seq : Nat) : Watch :=
  let answer := watch.detector.processSequence seq
  { detector := answer.2
    history := watch.history ++
      [{ expected := watch.detector.expectedSeq, seq := seq, result := answer.1 }] }

def processAll (watch : Watch) (stream : List Nat) : Watch :=
  stream.foldl process watch

def accepted (watch : Watch) : List Nat :=
  (watch.history.filter fun checked => checked.result.status ≠ .duplicate).map Checked.seq

def gaps (watch : Watch) : List SequenceGap :=
  (watch.history.filter fun checked => checked.result.status = .gapDetected).map
    fun checked => checked.result.gap

def duplicates (watch : Watch) : List Checked :=
  watch.history.filter fun checked => checked.result.status = .duplicate

theorem process_inSequence (watch : Watch) (seq : Nat) (small : seq < 2 ^ 64 - 1)
    (same : seq = watch.detector.expectedSeq) :
    (watch.process seq).detector = { watch.detector with expectedSeq := seq + 1 } ∧
      (watch.process seq).accepted = watch.accepted ++ [seq] ∧
      (watch.process seq).gaps = watch.gaps ∧
      (watch.process seq).duplicates = watch.duplicates := by
  rcases watch.detector.processSequence_cases seq small with taken | ahead | late
  next => simp [process, taken.2, accepted, gaps, duplicates]
  next => omega
  next => omega

theorem process_gapDetected (watch : Watch) (seq : Nat) (small : seq < 2 ^ 64 - 1)
    (above : watch.detector.expectedSeq < seq) :
    (watch.process seq).detector =
        { watch.detector with
          gapsDetected := u64 (watch.detector.gapsDetected + 1)
          packetsLost := u64 (watch.detector.packetsLost + (seq - watch.detector.expectedSeq))
          expectedSeq := seq + 1 } ∧
      (watch.process seq).accepted = watch.accepted ++ [seq] ∧
      (watch.process seq).gaps = watch.gaps ++
        [⟨watch.detector.expectedSeq, seq - 1, seq - watch.detector.expectedSeq⟩] ∧
      (watch.process seq).duplicates = watch.duplicates := by
  rcases watch.detector.processSequence_cases seq small with taken | ahead | late
  next => omega
  next => simp [process, ahead.2, accepted, gaps, duplicates]
  next => omega

theorem process_duplicate (watch : Watch) (seq : Nat) (small : seq < 2 ^ 64 - 1)
    (below : seq < watch.detector.expectedSeq) :
    (watch.process seq).detector =
        { watch.detector with duplicatesCount := u64 (watch.detector.duplicatesCount + 1) } ∧
      (watch.process seq).accepted = watch.accepted ∧
      (watch.process seq).gaps = watch.gaps ∧
      (watch.process seq).duplicates = watch.duplicates ++
        [{ expected := watch.detector.expectedSeq, seq := seq
           result := { status := .duplicate } }] := by
  rcases watch.detector.processSequence_cases seq small with taken | ahead | late
  next => omega
  next => omega
  next => simp [process, late.2, accepted, gaps, duplicates]

structure Consistent (initialExpected : Nat) (watch : Watch) : Prop where
  partition : Partitioned initialExpected watch.accepted watch.gaps watch.detector.expectedSeq
  lost : watch.detector.packetsLost = (watch.gaps.map SequenceGap.span).sum
  reported : watch.detector.gapsDetected = watch.gaps.length
  repeated : watch.detector.duplicatesCount = u64 watch.duplicates.length
  late : ∀ checked, checked ∈ watch.duplicates → checked.seq < checked.expected

theorem startingAt_consistent (initialExpected : Nat) :
    (startingAt initialExpected).Consistent initialExpected := by
  constructor
  case partition => exact Partitioned.empty initialExpected
  case late =>
    intro checked member
    simp [startingAt, duplicates] at member
  all_goals rfl

theorem process_consistent {initialExpected : Nat} {watch : Watch}
    (consistent : watch.Consistent initialExpected) {seq : Nat} (small : seq < 2 ^ 64 - 1) :
    (watch.process seq).Consistent initialExpected := by
  have partition := consistent.partition
  rcases Nat.lt_trichotomy seq watch.detector.expectedSeq with below | same | above
  next =>
    obtain ⟨detector, accepted, gaps, duplicates⟩ := watch.process_duplicate seq small below
    constructor
    case partition =>
      rw [accepted, gaps, detector]
      exact partition
    case lost =>
      rw [gaps, detector]
      exact consistent.lost
    case reported =>
      rw [gaps, detector]
      exact consistent.reported
    case repeated =>
      have repeated := consistent.repeated
      rw [duplicates, detector, List.length_append, List.length_singleton]
      simp only [repeated, u64]
      omega
    case late =>
      intro checked member
      rw [duplicates, List.mem_append, List.mem_singleton] at member
      rcases member with old | rfl
      next => exact consistent.late checked old
      next => exact below
  next =>
    obtain ⟨detector, accepted, gaps, duplicates⟩ := watch.process_inSequence seq small same
    constructor
    case partition =>
      rw [accepted, gaps, detector]
      subst same
      exact partition.accept
    case lost =>
      rw [gaps, detector]
      exact consistent.lost
    case reported =>
      rw [gaps, detector]
      exact consistent.reported
    case repeated =>
      rw [duplicates, detector]
      exact consistent.repeated
    case late =>
      rw [duplicates]
      exact consistent.late
  next =>
    obtain ⟨detector, accepted, gaps, duplicates⟩ := watch.process_gapDetected seq small above
    have extended := partition.report above (seq - watch.detector.expectedSeq)
    -- Neither counter wraps: both stay below the distance covered so far.
    have covered := extended.total
    have gapCount := extended.gaps_length_le
    have lost := consistent.lost
    have reported := consistent.reported
    simp only [List.map_append, List.map_cons, List.map_nil, List.sum_append, List.sum_cons,
      List.sum_nil, List.length_append, List.length_singleton, SequenceGap.span] at covered gapCount
    constructor
    case partition =>
      rw [accepted, gaps, detector]
      exact extended.accept
    case lost =>
      rw [gaps, detector]
      simp only [List.map_append, List.map_cons, List.map_nil, List.sum_append, List.sum_cons,
        List.sum_nil, SequenceGap.span, lost, u64]
      omega
    case reported =>
      rw [gaps, detector]
      simp only [List.length_append, List.length_singleton, reported, u64]
      omega
    case repeated =>
      rw [duplicates, detector]
      exact consistent.repeated
    case late =>
      rw [duplicates]
      exact consistent.late

theorem expectedSeq_le_process (watch : Watch) {seq : Nat} (small : seq < 2 ^ 64 - 1) :
    watch.detector.expectedSeq ≤ (watch.process seq).detector.expectedSeq := by
  rcases Nat.lt_trichotomy seq watch.detector.expectedSeq with below | same | above
  next => rw [(watch.process_duplicate seq small below).1]
  next =>
    rw [(watch.process_inSequence seq small same).1]
    simp only
    omega
  next =>
    rw [(watch.process_gapDetected seq small above).1]
    simp only
    omega

theorem processAll_consistent {initialExpected : Nat} (stream : List Nat) (watch : Watch)
    (consistent : watch.Consistent initialExpected)
    (small : ∀ seq, seq ∈ stream → seq < 2 ^ 64 - 1) :
    (watch.processAll stream).Consistent initialExpected := by
  induction stream generalizing watch with
  | nil => exact consistent
  | cons seq rest ih =>
    have kept := process_consistent consistent (small seq List.mem_cons_self)
    exact ih _ kept fun later member => small later (List.mem_cons_of_mem _ member)

theorem expectedSeq_le_processAll (stream : List Nat) (watch : Watch)
    (small : ∀ seq, seq ∈ stream → seq < 2 ^ 64 - 1) :
    watch.detector.expectedSeq ≤ (watch.processAll stream).detector.expectedSeq := by
  induction stream generalizing watch with
  | nil => exact Nat.le_refl _
  | cons seq rest ih =>
    calc watch.detector.expectedSeq
        ≤ (watch.process seq).detector.expectedSeq :=
          watch.expectedSeq_le_process (small seq List.mem_cons_self)
      _ ≤ ((watch.process seq).processAll rest).detector.expectedSeq :=
          ih _ fun later member => small later (List.mem_cons_of_mem _ member)

theorem gap_detector_partitions (initialExpected : Nat) (before after : List Nat)
    (small : ∀ seq, seq ∈ before ++ after → seq < 2 ^ 64 - 1) :
    let watch := (startingAt initialExpected).processAll before
    let final := (startingAt initialExpected).processAll (before ++ after)
    initialExpected ≤ watch.detector.expectedSeq ∧
      watch.detector.expectedSeq ≤ final.detector.expectedSeq ∧
      (∀ number, initialExpected ≤ number → number < watch.detector.expectedSeq →
        (watch.accepted.count number = 1 ∧ watch.gaps.countP (fun gap => gap.Holds number) = 0) ∨
        (watch.accepted.count number = 0 ∧
          watch.gaps.countP (fun gap => gap.Holds number) = 1)) ∧
      watch.accepted.Pairwise (· < ·) ∧
      (∀ gap, gap ∈ watch.gaps → gap.beginSeq ≤ gap.endSeq) ∧
      watch.gaps.Pairwise (fun earlier later => earlier.endSeq < later.beginSeq) ∧
      watch.detector.packetsLost = (watch.gaps.map SequenceGap.span).sum ∧
      watch.detector.gapsDetected = watch.gaps.length ∧
      watch.detector.duplicatesCount = u64 watch.duplicates.length ∧
      (watch.duplicates.length < 2 ^ 64 →
        watch.detector.duplicatesCount = watch.duplicates.length) ∧
      (∀ checked, checked ∈ watch.duplicates → checked.seq < checked.expected) := by
  intro watch final
  have smallBefore : ∀ seq, seq ∈ before → seq < 2 ^ 64 - 1 :=
    fun seq member => small seq (List.mem_append_left _ member)
  have consistent : watch.Consistent initialExpected :=
    processAll_consistent before _ (startingAt_consistent initialExpected) smallBefore
  have partition := consistent.partition
  have final_eq : final = watch.processAll after := List.foldl_append
  refine ⟨?_, ?_, ?_, partition.increasing, partition.nonempty, partition.ordered,
    consistent.lost, consistent.reported, consistent.repeated, ?_, consistent.late⟩
  next => exact expectedSeq_le_processAll before (startingAt initialExpected) smallBefore
  next =>
    rw [final_eq]
    exact watch.expectedSeq_le_processAll after
      fun seq member => small seq (List.mem_append_right _ member)
  next =>
    intro number above below
    exact partition.once above below
  next =>
    intro few
    rw [consistent.repeated]
    exact Nat.mod_eq_of_lt few

theorem gap_detector_partitions_jump :
    let watch := (startingAt 1).processAll [1, 5, 3, 5]
    watch.accepted = [1, 5] ∧ watch.detector.packetsLost = 3 ∧
      watch.detector.packetsLost = (watch.gaps.map SequenceGap.span).sum := by
  refine ⟨by decide +kernel, by decide +kernel, ?_⟩
  have run := gap_detector_partitions 1 [1, 5, 3, 5] [] (by decide)
  exact run.2.2.2.2.2.2.1

end Watch

end SequenceGapDetector

end HftFixEngine.Protocol
