import HftFixEngine.Protocol.ParsedOrder

set_option autoImplicit false

namespace HftFixEngine.Protocol

open Word

structure SequenceGap where
  beginSeq : Nat := 0
  endSeq : Nat := 0
  missingCount : Nat := 0
  deriving DecidableEq, Repr

inductive GapStatus where
  | inSequence
  | gapDetected
  | duplicate
  deriving DecidableEq, Repr

-- The resend request text is built from the two ends of the gap, see `ResendRequest`.
structure GapCheckResult where
  status : GapStatus
  gap : SequenceGap := {}
  deriving DecidableEq, Repr

structure SequenceGapDetector where
  expectedSeq : Nat := 1
  gapsDetected : Nat := 0
  packetsLost : Nat := 0
  duplicatesCount : Nat := 0
  deriving DecidableEq, Repr

namespace SequenceGapDetector

def processSequence (detector : SequenceGapDetector) (incomingSeq : Nat) :
    GapCheckResult × SequenceGapDetector :=
  if incomingSeq = detector.expectedSeq then
    ({ status := .inSequence }, { detector with expectedSeq := u64 (detector.expectedSeq + 1) })
  else if incomingSeq > detector.expectedSeq then
    let gap : SequenceGap :=
      { beginSeq := detector.expectedSeq
        endSeq := incomingSeq - 1
        missingCount := incomingSeq - detector.expectedSeq }
    ({ status := .gapDetected, gap },
      { detector with
        gapsDetected := u64 (detector.gapsDetected + 1)
        packetsLost := u64 (detector.packetsLost + gap.missingCount)
        expectedSeq := u64 (incomingSeq + 1) })
  else
    ({ status := .duplicate },
      { detector with duplicatesCount := u64 (detector.duplicatesCount + 1) })

end SequenceGapDetector

end HftFixEngine.Protocol
