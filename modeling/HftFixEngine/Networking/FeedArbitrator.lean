import HftFixEngine.Shared.Word
import Mathlib.Logic.Function.Basic

set_option autoImplicit false

namespace HftFixEngine.Networking

open Word

inductive FeedLine where
  | lineA
  | lineB
  deriving DecidableEq, Repr

structure ArbitrationResult where
  isDuplicate : Bool
  winnerLine : FeedLine
  seqNum : Nat
  deriving DecidableEq, Repr

structure FeedArbitrator where
  windowSize : Nat
  seenSequences : Nat → Nat := fun _ => 0
  winnerLines : Nat → FeedLine := fun _ => .lineA
  uniqueProcessed : Nat := 0
  duplicatesSuppressed : Nat := 0
  lineAWins : Nat := 0
  lineBWins : Nat := 0

namespace FeedArbitrator

def slot (arbitrator : FeedArbitrator) (seqNum : Nat) : Nat :=
  seqNum &&& (arbitrator.windowSize - 1)

def processPacket (arbitrator : FeedArbitrator) (line : FeedLine) (seqNum : Nat) :
    ArbitrationResult × FeedArbitrator :=
  let idx := arbitrator.slot seqNum
  if arbitrator.seenSequences idx = seqNum then
    ({ isDuplicate := true, winnerLine := arbitrator.winnerLines idx, seqNum },
      { arbitrator with duplicatesSuppressed := u64 (arbitrator.duplicatesSuppressed + 1) })
  else
    ({ isDuplicate := false, winnerLine := line, seqNum },
      { arbitrator with
        seenSequences := Function.update arbitrator.seenSequences idx seqNum
        winnerLines := Function.update arbitrator.winnerLines idx line
        lineAWins :=
          if line = .lineA then u64 (arbitrator.lineAWins + 1) else arbitrator.lineAWins
        lineBWins :=
          if line = .lineA then arbitrator.lineBWins else u64 (arbitrator.lineBWins + 1)
        uniqueProcessed := u64 (arbitrator.uniqueProcessed + 1) })

section ProcessPacket

variable (arbitrator : FeedArbitrator) (line : FeedLine) (seqNum : Nat)

theorem processPacket_isDuplicate :
    (arbitrator.processPacket line seqNum).1.isDuplicate =
      decide (arbitrator.seenSequences (arbitrator.slot seqNum) = seqNum) := by
  unfold processPacket
  by_cases seen : arbitrator.seenSequences (arbitrator.slot seqNum) = seqNum <;> simp [seen]

-- Either way the slot of the packet holds its number afterwards.
theorem processPacket_seenSequences :
    (arbitrator.processPacket line seqNum).2.seenSequences =
      Function.update arbitrator.seenSequences (arbitrator.slot seqNum) seqNum := by
  unfold processPacket
  by_cases seen : arbitrator.seenSequences (arbitrator.slot seqNum) = seqNum
  next =>
    simp only [seen, if_true]
    exact (Function.update_eq_self_iff.mpr seen.symm).symm
  next => simp [seen]

@[simp]
theorem processPacket_windowSize :
    (arbitrator.processPacket line seqNum).2.windowSize = arbitrator.windowSize := by
  unfold processPacket
  simp only
  split <;> rfl

end ProcessPacket

theorem slot_eq_mod (arbitrator : FeedArbitrator) {exponent : Nat}
    (size : arbitrator.windowSize = 2 ^ exponent) (seqNum : Nat) :
    arbitrator.slot seqNum = seqNum % arbitrator.windowSize := by
  rw [slot, size, Nat.and_two_pow_sub_one_eq_mod]

def reset (arbitrator : FeedArbitrator) : FeedArbitrator := { windowSize := arbitrator.windowSize }

end FeedArbitrator

end HftFixEngine.Networking
