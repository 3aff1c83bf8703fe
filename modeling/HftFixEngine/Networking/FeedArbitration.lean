import HftFixEngine.Networking.FeedArbitrator
import HftFixEngine.Shared.Ring
import Mathlib.Algebra.Ring.Nat
import Mathlib.Data.Finset.Card
import Mathlib.Data.List.Induction
import Mathlib.Data.List.Nodup
import Mathlib.Order.Interval.Finset.Nat

set_option autoImplicit false

namespace HftFixEngine.Networking

open Word

structure Packet where
  line : FeedLine
  seqNum : Nat
  deriving DecidableEq, Repr

namespace Packet

def firstLine (stream : List Packet) (seqNum : Nat) : Option FeedLine :=
  (stream.find? fun packet => packet.seqNum = seqNum).map Packet.line

def numbers (stream : List Packet) : List Nat :=
  stream.map Packet.seqNum

def distinct (stream : List Packet) : Nat :=
  (numbers stream).toFinset.card

def InWindow (windowSize : Nat) (stream : List Packet) : Prop :=
  stream.Pairwise fun earlier later => earlier.seqNum < later.seqNum + windowSize

theorem firstLine_append (stream : List Packet) (packet : Packet) (seqNum : Nat) :
    firstLine (stream ++ [packet]) seqNum =
      (firstLine stream seqNum).or (if packet.seqNum = seqNum then some packet.line else none) := by
  by_cases same : packet.seqNum = seqNum <;>
    simp [firstLine, List.find?_append, same]

theorem firstLine_eq_none (stream : List Packet) (seqNum : Nat) :
    firstLine stream seqNum = none ↔ seqNum ∉ numbers stream := by
  simp only [firstLine, numbers, Option.map_eq_none_iff, List.find?_eq_none, List.mem_map,
    decide_eq_true_eq, not_exists, not_and]

theorem numbers_append (stream : List Packet) (packet : Packet) :
    numbers (stream ++ [packet]) = numbers stream ++ [packet.seqNum] := by
  simp [numbers]

theorem distinct_append_new (stream : List Packet) (packet : Packet)
    (fresh : packet.seqNum ∉ numbers stream) :
    distinct (stream ++ [packet]) = distinct stream + 1 := by
  rw [distinct, numbers_append, List.toFinset_append, Finset.union_comm]
  simp only [List.toFinset_cons, List.toFinset_nil, insert_empty_eq]
  rw [← Finset.insert_eq, Finset.card_insert_of_notMem (by simpa using fresh), distinct]

theorem distinct_append_old (stream : List Packet) (packet : Packet)
    (seen : packet.seqNum ∈ numbers stream) :
    distinct (stream ++ [packet]) = distinct stream := by
  rw [distinct, numbers_append, List.toFinset_append, Finset.union_comm]
  simp only [List.toFinset_cons, List.toFinset_nil, insert_empty_eq]
  rw [← Finset.insert_eq, Finset.insert_eq_of_mem (by simpa using seen), distinct]

theorem distinct_le_length (stream : List Packet) : distinct stream ≤ stream.length := by
  simpa [distinct, numbers] using List.toFinset_card_le (numbers stream)

theorem distinct_lt (stream : List Packet)
    (numbered : ∀ packet, packet ∈ stream → 0 < packet.seqNum ∧ packet.seqNum < 2 ^ 64) :
    distinct stream < 2 ^ 64 := by
  have inside : (numbers stream).toFinset ⊆ Finset.Ioo 0 (2 ^ 64) := by
    intro seqNum member
    obtain ⟨packet, arrived, rfl⟩ := List.mem_map.mp (List.mem_toFinset.mp member)
    exact Finset.mem_Ioo.mpr (numbered packet arrived)
  have bound := Finset.card_le_card inside
  rw [Nat.card_Ioo] at bound
  unfold distinct
  omega

end Packet

namespace FeedArbitrator

open Packet

def answer (arbitrator : FeedArbitrator) (packet : Packet) : ArbitrationResult :=
  (arbitrator.processPacket packet.line packet.seqNum).1

def accept (arbitrator : FeedArbitrator) (packet : Packet) : FeedArbitrator :=
  (arbitrator.processPacket packet.line packet.seqNum).2

def processAll (arbitrator : FeedArbitrator) (stream : List Packet) : FeedArbitrator :=
  stream.foldl accept arbitrator

def accepted (arbitrator : FeedArbitrator) : List Packet → List Packet
  | [] => []
  | packet :: rest =>
    let later := (arbitrator.accept packet).accepted rest
    if (arbitrator.answer packet).isDuplicate then later else packet :: later

theorem accept_hit (arbitrator : FeedArbitrator) (packet : Packet)
    (hit : arbitrator.seenSequences (arbitrator.slot packet.seqNum) = packet.seqNum) :
    arbitrator.answer packet =
        { isDuplicate := true
          winnerLine := arbitrator.winnerLines (arbitrator.slot packet.seqNum)
          seqNum := packet.seqNum } ∧
      arbitrator.accept packet =
        { arbitrator with duplicatesSuppressed := u64 (arbitrator.duplicatesSuppressed + 1) } := by
  simp [answer, accept, processPacket, hit]

theorem accept_miss (arbitrator : FeedArbitrator) (packet : Packet)
    (miss : arbitrator.seenSequences (arbitrator.slot packet.seqNum) ≠ packet.seqNum) :
    (arbitrator.answer packet).isDuplicate = false ∧
      (arbitrator.accept packet).winnerLines =
        Function.update arbitrator.winnerLines (arbitrator.slot packet.seqNum) packet.line ∧
      (arbitrator.accept packet).uniqueProcessed = u64 (arbitrator.uniqueProcessed + 1) ∧
      (arbitrator.accept packet).duplicatesSuppressed = arbitrator.duplicatesSuppressed ∧
      (((arbitrator.accept packet).lineAWins = u64 (arbitrator.lineAWins + 1) ∧
          (arbitrator.accept packet).lineBWins = arbitrator.lineBWins) ∨
        ((arbitrator.accept packet).lineAWins = arbitrator.lineAWins ∧
          (arbitrator.accept packet).lineBWins = u64 (arbitrator.lineBWins + 1))) := by
  by_cases lineA : packet.line = .lineA <;>
    simp [answer, accept, processPacket, miss, lineA]

@[simp]
theorem accept_windowSize (arbitrator : FeedArbitrator) (packet : Packet) :
    (arbitrator.accept packet).windowSize = arbitrator.windowSize :=
  arbitrator.processPacket_windowSize packet.line packet.seqNum

theorem accept_seenSequences (arbitrator : FeedArbitrator) (packet : Packet) :
    (arbitrator.accept packet).seenSequences =
      Function.update arbitrator.seenSequences (arbitrator.slot packet.seqNum) packet.seqNum :=
  arbitrator.processPacket_seenSequences packet.line packet.seqNum

theorem processAll_append (arbitrator : FeedArbitrator) (stream : List Packet) (packet : Packet) :
    arbitrator.processAll (stream ++ [packet]) = (arbitrator.processAll stream).accept packet :=
  List.foldl_concat _ _ _ _

def Genuine (seen : List Packet) (arbitrator : FeedArbitrator) : Prop :=
  ∀ index, arbitrator.seenSequences index ≠ 0 → arbitrator.seenSequences index ∈ numbers seen

theorem Genuine.accept {seen : List Packet} {arbitrator : FeedArbitrator}
    (genuine : arbitrator.Genuine seen) (packet : Packet) :
    (arbitrator.accept packet).Genuine (seen ++ [packet]) := by
  intro index occupied
  rw [accept_seenSequences] at occupied ⊢
  rw [numbers_append, List.mem_append, List.mem_singleton]
  by_cases same : index = arbitrator.slot packet.seqNum
  next =>
    subst same
    right
    rw [Function.update_self]
  next =>
    left
    rw [Function.update_of_ne same] at occupied ⊢
    exact genuine index occupied

theorem Genuine.miss {seen : List Packet} {arbitrator : FeedArbitrator}
    (genuine : arbitrator.Genuine seen) {packet : Packet} (positive : 0 < packet.seqNum)
    (fresh : packet.seqNum ∉ numbers seen) :
    arbitrator.seenSequences (arbitrator.slot packet.seqNum) ≠ packet.seqNum := by
  intro hit
  have arrived := genuine (arbitrator.slot packet.seqNum) (by omega)
  rw [hit] at arrived
  exact fresh arrived

theorem processAll_genuine {arbitrator : FeedArbitrator} (genuine : arbitrator.Genuine [])
    (stream : List Packet) : (arbitrator.processAll stream).Genuine stream := by
  induction stream using List.reverseRecOn with
  | nil => exact genuine
  | append_singleton stream packet ih =>
    rw [processAll_append]
    exact ih.accept packet

-- A number at most one window behind everything seen is still in the table, with the line that
-- delivered it first.
def Remembers (windowSize : Nat) (seen : List Packet) (arbitrator : FeedArbitrator) : Prop :=
  ∀ seqNum, seqNum ∈ numbers seen →
    (∀ packet, packet ∈ seen → packet.seqNum < seqNum + windowSize) →
    arbitrator.seenSequences (arbitrator.slot seqNum) = seqNum ∧
      firstLine seen seqNum = some (arbitrator.winnerLines (arbitrator.slot seqNum))

section Window

variable {exponent : Nat} {seen : List Packet} {arbitrator : FeedArbitrator} {packet : Packet}

-- Two numbers of one slot that are less than a window apart are the same.
theorem slot_inj (size : arbitrator.windowSize = 2 ^ exponent) {left right : Nat}
    (same : arbitrator.slot left = arbitrator.slot right) (near : left < right + 2 ^ exponent)
    (close : right < left + 2 ^ exponent) : left = right := by
  rw [arbitrator.slot_eq_mod size, arbitrator.slot_eq_mod size, size] at same
  rcases Nat.le_total left right with order | order
  next => exact (Ring.index_eq_iff order close).mp same
  next => exact ((Ring.index_eq_iff order near).mp same.symm).symm

theorem Remembers.hit_iff (remembers : arbitrator.Remembers (2 ^ exponent) seen)
    (genuine : arbitrator.Genuine seen) (positive : 0 < packet.seqNum)
    (near : ∀ earlier, earlier ∈ seen → earlier.seqNum < packet.seqNum + 2 ^ exponent) :
    arbitrator.seenSequences (arbitrator.slot packet.seqNum) = packet.seqNum ↔
      packet.seqNum ∈ numbers seen := by
  constructor
  next =>
    intro hit
    by_contra fresh
    exact genuine.miss positive fresh hit
  next =>
    intro arrived
    exact (remembers packet.seqNum arrived near).1

theorem slot_accept (number : Nat) :
    (arbitrator.accept packet).slot number = arbitrator.slot number := by
  rw [slot, slot, accept_windowSize]

theorem Remembers.accept_own
    (remembers : arbitrator.Remembers (2 ^ exponent) seen)
    (genuine : arbitrator.Genuine seen) (positive : 0 < packet.seqNum)
    (near : ∀ earlier, earlier ∈ seen → earlier.seqNum < packet.seqNum + 2 ^ exponent) :
    firstLine (seen ++ [packet]) packet.seqNum =
      some ((arbitrator.accept packet).winnerLines (arbitrator.slot packet.seqNum)) := by
  rw [firstLine_append]
  by_cases arrived : packet.seqNum ∈ numbers seen
  next =>
    have known := remembers packet.seqNum arrived near
    rw [(arbitrator.accept_hit packet known.1).2, known.2]
    rfl
  next =>
    have miss := genuine.miss positive arrived
    rw [(arbitrator.accept_miss packet miss).2.1, Function.update_self,
      (firstLine_eq_none seen packet.seqNum).mpr arrived]
    simp

theorem Remembers.accept (size : arbitrator.windowSize = 2 ^ exponent)
    (remembers : arbitrator.Remembers (2 ^ exponent) seen)
    (genuine : arbitrator.Genuine seen) (positive : 0 < packet.seqNum)
    (near : ∀ earlier, earlier ∈ seen → earlier.seqNum < packet.seqNum + 2 ^ exponent) :
    (arbitrator.accept packet).Remembers (2 ^ exponent) (seen ++ [packet]) := by
  intro seqNum arrived recent
  rw [slot_accept, accept_seenSequences]
  by_cases same : seqNum = packet.seqNum
  next =>
    subst same
    exact ⟨Function.update_self _ _ _, remembers.accept_own genuine positive near⟩
  next =>
    rw [numbers_append, List.mem_append, List.mem_singleton] at arrived
    have old : seqNum ∈ numbers seen := arrived.resolve_right same
    have known := remembers seqNum old
      fun earlier member => recent earlier (List.mem_append_left _ member)
    have otherSlot : arbitrator.slot seqNum ≠ arbitrator.slot packet.seqNum := by
      intro clash
      obtain ⟨earlier, member, rfl⟩ := List.mem_map.mp old
      have behind := recent packet (List.mem_append_right _ (List.mem_singleton_self packet))
      exact same (slot_inj size clash (near earlier member) behind)
    refine ⟨by rw [Function.update_of_ne otherSlot, known.1], ?_⟩
    rw [firstLine_append, known.2]
    by_cases hit : arbitrator.seenSequences (arbitrator.slot packet.seqNum) = packet.seqNum
    next =>
      rw [(arbitrator.accept_hit packet hit).2]
      rfl
    next =>
      rw [(arbitrator.accept_miss packet hit).2.1, Function.update_of_ne otherSlot]
      rfl

structure Counts (seen : List Packet) (arbitrator : FeedArbitrator) : Prop where
  unique : arbitrator.uniqueProcessed = distinct seen
  repeated : arbitrator.duplicatesSuppressed = u64 (seen.length - distinct seen)
  wins : arbitrator.lineAWins + arbitrator.lineBWins = distinct seen

theorem Counts.accept_old (counts : arbitrator.Counts seen)
    (hit : arbitrator.seenSequences (arbitrator.slot packet.seqNum) = packet.seqNum)
    (arrived : packet.seqNum ∈ numbers seen) :
    (arbitrator.accept packet).Counts (seen ++ [packet]) := by
  have step := (arbitrator.accept_hit packet hit).2
  have same := distinct_append_old seen packet arrived
  have short := distinct_le_length seen
  have repeated := counts.repeated
  constructor
  case unique =>
    rw [same, step]
    exact counts.unique
  case repeated =>
    rw [same, step, List.length_append, List.length_singleton]
    simp only [repeated, u64]
    omega
  case wins =>
    rw [same, step]
    exact counts.wins

theorem Counts.accept_new (counts : arbitrator.Counts seen)
    (miss : arbitrator.seenSequences (arbitrator.slot packet.seqNum) ≠ packet.seqNum)
    (fresh : packet.seqNum ∉ numbers seen) (few : distinct (seen ++ [packet]) < 2 ^ 64) :
    (arbitrator.accept packet).Counts (seen ++ [packet]) := by
  obtain ⟨-, -, unique, repeated, wins⟩ := arbitrator.accept_miss packet miss
  have one := distinct_append_new seen packet fresh
  have oldUnique := counts.unique
  have oldWins := counts.wins
  constructor
  case unique =>
    rw [unique, u64]
    omega
  case repeated =>
    rw [repeated, one, counts.repeated, List.length_append, List.length_singleton,
      Nat.add_sub_add_right]
  case wins =>
    rcases wins with ⟨lineA, lineB⟩ | ⟨lineA, lineB⟩
    all_goals
      rw [lineA, lineB, u64]
      omega

structure Lawful (exponent : Nat) (seen : List Packet) (arbitrator : FeedArbitrator) : Prop where
  size : arbitrator.windowSize = 2 ^ exponent
  genuine : arbitrator.Genuine seen
  remembers : arbitrator.Remembers (2 ^ exponent) seen
  counts : arbitrator.Counts seen

theorem Lawful.accept (lawful : arbitrator.Lawful exponent seen) (positive : 0 < packet.seqNum)
    (near : ∀ earlier, earlier ∈ seen → earlier.seqNum < packet.seqNum + 2 ^ exponent)
    (few : distinct (seen ++ [packet]) < 2 ^ 64) :
    (arbitrator.accept packet).Lawful exponent (seen ++ [packet]) := by
  have known := lawful.remembers.hit_iff lawful.genuine positive near
  constructor
  case size => rw [accept_windowSize, lawful.size]
  case genuine => exact lawful.genuine.accept packet
  case remembers => exact lawful.remembers.accept lawful.size lawful.genuine positive near
  case counts =>
    by_cases arrived : packet.seqNum ∈ numbers seen
    next => exact lawful.counts.accept_old (known.mpr arrived) arrived
    next =>
      exact lawful.counts.accept_new (fun hit => arrived (known.mp hit)) arrived few

end Window

def Initial (exponent : Nat) (arbitrator : FeedArbitrator) : Prop :=
  arbitrator = { windowSize := 2 ^ exponent } ∨
    ∃ used : FeedArbitrator, used.windowSize = 2 ^ exponent ∧ arbitrator = used.reset

theorem Initial.lawful {exponent : Nat} {arbitrator : FeedArbitrator}
    (initial : arbitrator.Initial exponent) : arbitrator.Lawful exponent [] := by
  have fresh : arbitrator = { windowSize := 2 ^ exponent } := by
    rcases initial with fresh | ⟨used, size, rfl⟩
    next => exact fresh
    next => rw [reset, size]
  subst fresh
  constructor
  case size => rfl
  case genuine =>
    intro index occupied
    exact absurd rfl occupied
  case remembers =>
    intro seqNum arrived
    simp [numbers] at arrived
  case counts => constructor <;> rfl

theorem processAll_lawful {exponent : Nat} {arbitrator : FeedArbitrator}
    (initial : arbitrator.Lawful exponent []) (stream : List Packet)
    (numbered : ∀ packet, packet ∈ stream → 0 < packet.seqNum ∧ packet.seqNum < 2 ^ 64)
    (window : InWindow (2 ^ exponent) stream) :
    (arbitrator.processAll stream).Lawful exponent stream := by
  induction stream using List.reverseRecOn with
  | nil => exact initial
  | append_singleton stream packet ih =>
    rw [InWindow, List.pairwise_append] at window
    have before := ih (fun earlier member => numbered earlier (List.mem_append_left _ member))
      window.1
    rw [processAll_append]
    exact before.accept (numbered packet (by simp)).1
      (fun earlier member => window.2.2 earlier member packet (List.mem_singleton_self packet))
      (distinct_lt _ numbered)

theorem accepted_append (arbitrator : FeedArbitrator) (stream : List Packet) (packet : Packet) :
    arbitrator.accepted (stream ++ [packet]) =
      arbitrator.accepted stream ++
        if ((arbitrator.processAll stream).answer packet).isDuplicate then [] else [packet] := by
  induction stream generalizing arbitrator with
  | nil =>
    simp only [List.nil_append, accepted]
    rfl
  | cons head rest ih =>
    simp only [List.cons_append, accepted, ih]
    split <;> rfl

section Law

variable {exponent : Nat} {arbitrator : FeedArbitrator}

theorem answer_isDuplicate (initial : arbitrator.Initial exponent) {before : List Packet}
    {packet : Packet}
    (numbered : ∀ other, other ∈ before ++ [packet] → 0 < other.seqNum ∧ other.seqNum < 2 ^ 64)
    (window : InWindow (2 ^ exponent) (before ++ [packet])) :
    ((arbitrator.processAll before).answer packet).isDuplicate =
      decide (packet.seqNum ∈ numbers before) := by
  rw [InWindow, List.pairwise_append] at window
  have lawful := processAll_lawful initial.lawful before
    (fun earlier member => numbered earlier (List.mem_append_left _ member)) window.1
  have positive : 0 < packet.seqNum := (numbered packet (by simp)).1
  have known := lawful.remembers.hit_iff lawful.genuine positive
    fun earlier member => window.2.2 earlier member packet (List.mem_singleton_self packet)
  rw [answer, processPacket_isDuplicate, decide_eq_decide]
  exact known

theorem numbers_accepted (initial : arbitrator.Initial exponent) (stream : List Packet)
    (numbered : ∀ packet, packet ∈ stream → 0 < packet.seqNum ∧ packet.seqNum < 2 ^ 64)
    (window : InWindow (2 ^ exponent) stream) :
    (numbers (arbitrator.accepted stream)).Nodup ∧
      ∀ seqNum, seqNum ∈ numbers (arbitrator.accepted stream) ↔ seqNum ∈ numbers stream := by
  induction stream using List.reverseRecOn with
  | nil => simp [accepted, numbers]
  | append_singleton stream packet ih =>
    have flagged := answer_isDuplicate initial numbered window
    rw [InWindow, List.pairwise_append] at window
    obtain ⟨nodup, same⟩ :=
      ih (fun earlier member => numbered earlier (List.mem_append_left _ member)) window.1
    rw [accepted_append, flagged, numbers_append]
    by_cases arrived : packet.seqNum ∈ numbers stream
    next =>
      simp only [arrived, decide_true, if_true, List.append_nil]
      refine ⟨nodup, ?_⟩
      intro seqNum
      rw [same, List.mem_append, List.mem_singleton]
      constructor
      next => exact Or.inl
      next =>
        rintro (old | rfl)
        next => exact old
        next => exact arrived
    next =>
      simp only [arrived, decide_false, Bool.false_eq_true, if_false, numbers_append]
      constructor
      next =>
        rw [List.nodup_append]
        refine ⟨nodup, List.nodup_singleton _, ?_⟩
        rintro earlier member last isLast rfl
        rw [List.mem_singleton.mp isLast, same] at member
        exact arrived member
      next =>
        intro seqNum
        rw [List.mem_append, List.mem_append, same]

end Law

theorem feed_arbitration_law (exponent : Nat) (arbitrator : FeedArbitrator)
    (initial : arbitrator.Initial exponent) (stream : List Packet)
    (numbered : ∀ packet, packet ∈ stream → 0 < packet.seqNum ∧ packet.seqNum < 2 ^ 64) :
    (∀ before packet after, stream = before ++ packet :: after →
      packet.seqNum ∉ numbers before →
      ((arbitrator.processAll before).answer packet).isDuplicate = false) ∧
    (InWindow (2 ^ exponent) stream →
      (∀ seqNum, seqNum ∈ numbers stream →
        (numbers (arbitrator.accepted stream)).count seqNum = 1) ∧
      (∀ before packet after line, stream = before ++ packet :: after →
        firstLine before packet.seqNum = some line →
        ((arbitrator.processAll before).answer packet).isDuplicate = true ∧
          ((arbitrator.processAll before).answer packet).winnerLine = line) ∧
      (arbitrator.processAll stream).uniqueProcessed = distinct stream ∧
      (arbitrator.processAll stream).duplicatesSuppressed =
        u64 (stream.length - distinct stream) ∧
      (stream.length < 2 ^ 64 →
        (arbitrator.processAll stream).duplicatesSuppressed = stream.length - distinct stream) ∧
      (arbitrator.processAll stream).lineAWins + (arbitrator.processAll stream).lineBWins =
        (arbitrator.processAll stream).uniqueProcessed) := by
  have lawful := initial.lawful
  constructor
  next =>
    rintro before packet after rfl fresh
    have genuine := processAll_genuine lawful.genuine before
    exact (accept_miss _ packet (genuine.miss (numbered packet (by simp)).1 fresh)).1
  next =>
    intro window
    have counts := (processAll_lawful lawful stream numbered window).counts
    refine ⟨?_, ?_, counts.unique, counts.repeated, ?_, ?_⟩
    next =>
      intro seqNum arrived
      obtain ⟨nodup, same⟩ := numbers_accepted initial stream numbered window
      exact List.count_eq_one_of_mem nodup ((same seqNum).mpr arrived)
    next =>
      rintro before packet after line rfl first
      rw [InWindow, List.pairwise_append] at window
      have reached := processAll_lawful lawful before
        (fun earlier member => numbered earlier (List.mem_append_left _ member)) window.1
      have arrived : packet.seqNum ∈ numbers before := by
        by_contra fresh
        rw [(firstLine_eq_none before packet.seqNum).mpr fresh] at first
        cases first
      have known := reached.remembers packet.seqNum arrived
        fun earlier member => window.2.2 earlier member packet List.mem_cons_self
      rw [(accept_hit _ packet known.1).1]
      exact ⟨rfl, Option.some.inj (known.2.symm.trans first)⟩
    next =>
      intro short
      rw [counts.repeated]
      exact Nat.mod_eq_of_lt (by omega)
    next => rw [counts.wins, counts.unique]

theorem feed_arbitration_law_two_lines :
    let arbitrator : FeedArbitrator := { windowSize := 2 ^ 2 }
    let stream : List Packet := [⟨.lineB, 3⟩, ⟨.lineA, 1⟩, ⟨.lineA, 3⟩, ⟨.lineB, 4⟩]
    (arbitrator.processAll stream).uniqueProcessed = distinct stream ∧ distinct stream = 3 := by
  refine ⟨?_, by decide +kernel⟩
  have law := feed_arbitration_law 2 { windowSize := 2 ^ 2 } (.inl rfl)
    [⟨.lineB, 3⟩, ⟨.lineA, 1⟩, ⟨.lineA, 3⟩, ⟨.lineB, 4⟩] (by decide)
  exact (law.2 (by simp [InWindow])).2.2.1

end FeedArbitrator

end HftFixEngine.Networking
