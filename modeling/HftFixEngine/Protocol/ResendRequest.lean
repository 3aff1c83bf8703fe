import HftFixEngine.Protocol.FieldScan
import HftFixEngine.Protocol.SequenceGapDetector
import Mathlib.Algebra.BigOperators.Group.List.Basic

set_option autoImplicit false

namespace HftFixEngine.Protocol

open Word

-- The text in `resend_request_msg` up to its terminator, and what `snprintf` returned.
structure ResendRequest where
  msg : Bytes := []
  len : Nat := 0
  deriving DecidableEq, Repr

abbrev resendRequestRoom : Nat := 255

def resendRequestText (gap : SequenceGap) : Bytes :=
  ascii "8=FIX.4.2\x01" ++
    ascii "9=78\x01" ++
    ascii "35=2\x01" ++
    ascii "49=HFT_ENGINE\x01" ++
    ascii "56=EXCHANGE\x01" ++
    ascii "7=" ++ toChars gap.beginSeq ++ ascii "\x01" ++
    ascii "16=" ++ toChars gap.endSeq ++ ascii "\x01" ++
    ascii "10=128\x01"

def GapCheckResult.resendRequest (result : GapCheckResult) : ResendRequest :=
  if result.status = .gapDetected then
    { msg := (resendRequestText result.gap).take resendRequestRoom
      len := (resendRequestText result.gap).length }
  else {}

def resendTexts (gap : SequenceGap) : List (Int × Bytes) :=
  [(8, ascii "FIX.4.2"), (9, ascii "78"), (35, ascii "2"), (49, ascii "HFT_ENGINE"),
    (56, ascii "EXCHANGE"), (7, toChars gap.beginSeq), (16, toChars gap.endSeq), (10, ascii "128")]

theorem resendTexts_ok (gap : SequenceGap) :
    ∀ entry, entry ∈ resendTexts gap →
      InInt32 entry.1 ∧ ∀ char, char ∈ entry.2 → char ≠ 1 ∧ char ≠ 124 := by
  simp only [resendTexts, List.forall_mem_cons, List.not_mem_nil, false_implies, implies_true,
    and_true]
  have first := (FixValue.decimal gap.beginSeq).free
  have last := (FixValue.decimal gap.endSeq).free
  refine ⟨?_, ?_, ?_, ?_, ?_, ⟨by decide, first⟩, ⟨by decide, last⟩, ?_⟩
  all_goals decide +kernel

theorem FixField.soh_ends : (1 : UInt8) = 1 ∨ (1 : UInt8) = 124 := Or.inl rfl

def resendFields (gap : SequenceGap) : List FixField :=
  (resendTexts gap).pmap
    (fun entry ok =>
      { tag := entry.1, value := ⟨entry.2, ok.2⟩, tag_inInt32 := ok.1
        delimiter_ends := FixField.soh_ends })
    (resendTexts_ok gap)

namespace FixField

-- The fields the body length counts: behind tag 9 and in front of tag 10.
def body (fields : List FixField) : List FixField :=
  ((fields.dropWhile fun field => field.tag ≠ 9).drop 1).takeWhile fun field => field.tag ≠ 10

def bodyLength (fields : List FixField) : Nat := (serialize (body fields) true).length

def byteSum (bytes : Bytes) : Nat := (bytes.map UInt8.toNat).sum

def checkSum (fields : List FixField) : Nat :=
  byteSum (serialize (fields.takeWhile fun field => field.tag ≠ 10) true) % 256

end FixField

def scannedNumbers (text : Bytes) (tag : Int) : List Nat :=
  ((FixParser.scanFields text.length text).filter fun field => field.1 = tag).map
    fun field => fromCharsUint64 field.2 0

structure ResendRequest.WellFormed (request : ResendRequest) (gap : SequenceGap)
    (fields : List FixField) : Prop where
  text : request.msg = FixField.serialize fields true
  len : request.len = request.msg.length
  fits : request.len < 256
  beginSeq : scannedNumbers request.msg 7 = [gap.beginSeq]
  endSeq : scannedNumbers request.msg 16 = [gap.endSeq]
  bodyLength : scannedNumbers request.msg 9 = [FixField.bodyLength fields]
  checkSum : scannedNumbers request.msg 10 = [FixField.checkSum fields]

def resendBody (gap : SequenceGap) : Bytes :=
  ascii "35=2\x01" ++
    ascii "49=HFT_ENGINE\x01" ++
    ascii "56=EXCHANGE\x01" ++
    ascii "7=" ++ toChars gap.beginSeq ++ ascii "\x01" ++
    ascii "16=" ++ toChars gap.endSeq ++ ascii "\x01"

theorem serialize_body (gap : SequenceGap) :
    FixField.serialize (FixField.body (resendFields gap)) true = resendBody gap := by
  have fields : FixField.body (resendFields gap) = ((resendFields gap).drop 2).take 5 := rfl
  have field35 : ascii "35=2\x01" = toCharsInt 35 ++ 61 :: (ascii "2" ++ [1]) := by decide +kernel
  have field49 : ascii "49=HFT_ENGINE\x01" =
      toCharsInt 49 ++ 61 :: (ascii "HFT_ENGINE" ++ [1]) := by
    decide +kernel
  have field56 : ascii "56=EXCHANGE\x01" = toCharsInt 56 ++ 61 :: (ascii "EXCHANGE" ++ [1]) := by
    decide +kernel
  have field7 : ascii "7=" = toCharsInt 7 ++ [61] := by decide +kernel
  have field16 : ascii "16=" = toCharsInt 16 ++ [61] := by decide +kernel
  have delimiter : ascii "\x01" = [1] := by decide +kernel
  delta resendBody
  rw [FixField.serialize_closed, fields, field35, field49, field56, field7, field16, delimiter]
  simp only [resendFields, resendTexts, List.pmap_cons, List.pmap_nil, List.drop_succ_cons,
    List.drop_zero, List.take_succ_cons, List.take_zero, List.flatMap_cons, List.flatMap_nil,
    FixField.text, List.append_assoc, List.cons_append, List.nil_append]

theorem serialize_append (fields others : List FixField) :
    FixField.serialize (fields ++ others) true =
      FixField.serialize fields true ++ FixField.serialize others true := by
  simp only [FixField.serialize_closed, List.flatMap_append]

theorem serialize_summed (gap : SequenceGap) :
    FixField.serialize ((resendFields gap).takeWhile fun field => field.tag ≠ 10) true =
      ascii "8=FIX.4.2\x019=78\x01" ++ resendBody gap := by
  have split : ((resendFields gap).takeWhile fun field => field.tag ≠ 10) =
      (resendFields gap).take 2 ++ FixField.body (resendFields gap) := rfl
  have front : FixField.serialize ((resendFields gap).take 2) true =
      ascii "8=FIX.4.2\x019=78\x01" := by
    change FixField.serialize [{ tag := 8, value := .literal "FIX.4.2" },
      { tag := 9, value := .literal "78" }] true = _
    decide +kernel
  rw [split, serialize_append, serialize_body, front]

theorem resendRequestText_eq_serialize (gap : SequenceGap) :
    resendRequestText gap = FixField.serialize (resendFields gap) true := by
  have split : resendFields gap =
      (resendFields gap).takeWhile (fun field => field.tag ≠ 10) ++ (resendFields gap).drop 7 := rfl
  have last : FixField.serialize ((resendFields gap).drop 7) true = ascii "10=128\x01" := by
    change FixField.serialize [{ tag := 10, value := .literal "128" }] true = _
    decide +kernel
  have front : ascii "8=FIX.4.2\x019=78\x01" = ascii "8=FIX.4.2\x01" ++ ascii "9=78\x01" := by
    decide +kernel
  rw [split, serialize_append, serialize_summed, last, front]
  delta resendRequestText resendBody
  simp only [List.append_assoc]

theorem length_resendRequestText (gap : SequenceGap) :
    (resendRequestText gap).length =
      60 + (toChars gap.beginSeq).length + (toChars gap.endSeq).length := by
  simp [resendRequestText, ascii]
  omega

theorem scannedNumbers_resendRequestText (gap : SequenceGap) (tag : Int) :
    scannedNumbers (resendRequestText gap) tag =
      ((resendFields gap).filter fun field => field.tag = tag).map
        fun field => fromCharsUint64 field.value.bytes 0 := by
  rw [scannedNumbers, resendRequestText_eq_serialize,
    FixField.scanFields_serialize _ true _ (FixField.length_le_serialize _ true), List.filter_map,
    List.map_map]
  rfl

def digitSum (number : Nat) : Nat := ((toChars number).map digitValue).sum

theorem byteSum_toChars (number : Nat) :
    FixField.byteSum (toChars number) = 48 * (toChars number).length + digitSum number := by
  have digits := isDigit_toChars number
  unfold digitSum FixField.byteSum
  generalize toChars number = chars at digits
  induction chars with
  | nil => rfl
  | cons char rest ih =>
    have first := digits char List.mem_cons_self
    have later := ih fun other member => digits other (List.mem_cons_of_mem char member)
    simp only [isDigit, Bool.and_eq_true, decide_eq_true_eq, UInt8.le_iff_toNat_le,
      UInt8.toNat_ofNat] at first
    simp only [List.map_cons, List.sum_cons, List.length_cons, digitValue] at later ⊢
    omega

theorem bodyLength_resendFields (gap : SequenceGap) :
    FixField.bodyLength (resendFields gap) =
      38 + (toChars gap.beginSeq).length + (toChars gap.endSeq).length := by
  rw [FixField.bodyLength, serialize_body]
  simp [resendBody, ascii]
  omega

theorem byteSum_append (bytes others : Bytes) :
    FixField.byteSum (bytes ++ others) = FixField.byteSum bytes + FixField.byteSum others := by
  simp [FixField.byteSum]

theorem checkSum_resendFields (gap : SequenceGap) :
    FixField.checkSum (resendFields gap) =
      (2949 + 48 * ((toChars gap.beginSeq).length + (toChars gap.endSeq).length) +
        digitSum gap.beginSeq + digitSum gap.endSeq) % 256 := by
  have front : FixField.byteSum (ascii "8=FIX.4.2\x019=78\x01") = 773 := by decide +kernel
  have field35 : FixField.byteSum (ascii "35=2\x01") = 216 := by decide +kernel
  have field49 : FixField.byteSum (ascii "49=HFT_ENGINE\x01") = 930 := by decide +kernel
  have field56 : FixField.byteSum (ascii "56=EXCHANGE\x01") = 748 := by decide +kernel
  have field7 : FixField.byteSum (ascii "7=") = 116 := by decide +kernel
  have field16 : FixField.byteSum (ascii "16=") = 164 := by decide +kernel
  have delimiter : FixField.byteSum (ascii "\x01") = 1 := by decide +kernel
  rw [FixField.checkSum, serialize_summed, resendBody]
  simp only [byteSum_append, byteSum_toChars, front, field35, field49, field56, field7, field16,
    delimiter]
  omega

theorem length_toChars_eq_iff {number : Nat} (small : number < 2 ^ 64) :
    (toChars number).length = 20 ↔ 10 ^ 19 ≤ number := by
  have most : (toChars number).length ≤ 20 := length_toChars_le (by decide) (by omega)
  have fewer : (toChars number).length ≤ 19 ↔ number < 10 ^ 19 := by
    rw [toChars, List.length_map]
    exact Nat.length_toDigits_le_iff (by decide) (by decide)
  omega

theorem scanned_ends (gap : SequenceGap) (begins : gap.beginSeq < 2 ^ 64)
    (ends : gap.endSeq < 2 ^ 64) :
    scannedNumbers (resendRequestText gap) 7 = [gap.beginSeq] ∧
      scannedNumbers (resendRequestText gap) 16 = [gap.endSeq] := by
  rw [scannedNumbers_resendRequestText, scannedNumbers_resendRequestText]
  simp [resendFields, resendTexts, fromCharsUint64_toChars _ begins,
    fromCharsUint64_toChars _ ends]

theorem scanned_template (gap : SequenceGap) :
    scannedNumbers (resendRequestText gap) 9 = [78] ∧
      scannedNumbers (resendRequestText gap) 10 = [128] := by
  have length : fromCharsUint64 (ascii "78") 0 = 78 := by decide +kernel
  have sum : fromCharsUint64 (ascii "128") 0 = 128 := by decide +kernel
  rw [scannedNumbers_resendRequestText, scannedNumbers_resendRequestText]
  simp [resendFields, resendTexts, length, sum]

theorem resendRequestText_wellFormed_iff (gap : SequenceGap) (ordered : gap.beginSeq ≤ gap.endSeq)
    (typed : gap.endSeq < 2 ^ 64) :
    ResendRequest.WellFormed ⟨resendRequestText gap, (resendRequestText gap).length⟩ gap
        (resendFields gap) ↔
      10 ^ 19 ≤ gap.beginSeq ∧ (digitSum gap.beginSeq + digitSum gap.endSeq) % 256 = 123 := by
  have begins : gap.beginSeq < 2 ^ 64 := by omega
  have firstMost : (toChars gap.beginSeq).length ≤ 20 := length_toChars_le (by decide) (by omega)
  have lastMost : (toChars gap.endSeq).length ≤ 20 := length_toChars_le (by decide) (by omega)
  have first := length_toChars_eq_iff begins
  have last := length_toChars_eq_iff typed
  have long := length_resendRequestText gap
  have body := bodyLength_resendFields gap
  have sum := checkSum_resendFields gap
  obtain ⟨beginSeq, endSeq⟩ := scanned_ends gap begins typed
  obtain ⟨nine, ten⟩ := scanned_template gap
  constructor
  next =>
    intro wellFormed
    have bodyLength := wellFormed.bodyLength
    have checkSum := wellFormed.checkSum
    rw [nine, List.singleton_inj] at bodyLength
    rw [ten, List.singleton_inj] at checkSum
    omega
  next =>
    rintro ⟨large, digits⟩
    refine ⟨resendRequestText_eq_serialize gap, rfl, ?_, beginSeq, endSeq, ?_, ?_⟩
    next =>
      change (resendRequestText gap).length < 256
      omega
    next =>
      rw [nine, List.singleton_inj]
      omega
    next =>
      rw [ten, List.singleton_inj]
      omega

namespace SequenceGapDetector

theorem processSequence_gap (detector : SequenceGapDetector) {incomingSeq : Nat}
    (ahead : detector.expectedSeq < incomingSeq) :
    (detector.processSequence incomingSeq).1 =
      { status := .gapDetected
        gap :=
          ⟨detector.expectedSeq, incomingSeq - 1, incomingSeq - detector.expectedSeq⟩ } := by
  rw [processSequence, if_neg (by omega), if_pos ahead]

theorem resendRequest_gap (gap : SequenceGap) (begins : gap.beginSeq < 2 ^ 64)
    (ends : gap.endSeq < 2 ^ 64) :
    GapCheckResult.resendRequest ⟨.gapDetected, gap⟩ =
      ⟨resendRequestText gap, (resendRequestText gap).length⟩ := by
  have firstMost : (toChars gap.beginSeq).length ≤ 20 := length_toChars_le (by decide) (by omega)
  have lastMost : (toChars gap.endSeq).length ≤ 20 := length_toChars_le (by decide) (by omega)
  have long := length_resendRequestText gap
  have room : (resendRequestText gap).length ≤ resendRequestRoom := by
    simp only [resendRequestRoom]
    omega
  simp only [GapCheckResult.resendRequest, if_true, List.take_of_length_le room]

theorem resendRequest_wellFormed_iff (detector : SequenceGapDetector) (incomingSeq : Nat)
    (typed : incomingSeq < 2 ^ 64) (ahead : detector.expectedSeq < incomingSeq) :
    let result := (detector.processSequence incomingSeq).1
    result.resendRequest.WellFormed result.gap (resendFields result.gap) ↔
      10 ^ 19 ≤ detector.expectedSeq ∧
        (digitSum detector.expectedSeq + digitSum (incomingSeq - 1)) % 256 = 123 := by
  intro result
  have found := detector.processSequence_gap ahead
  have begins : detector.expectedSeq < 2 ^ 64 := by omega
  have ends : incomingSeq - 1 < 2 ^ 64 := by omega
  have ordered : detector.expectedSeq ≤ incomingSeq - 1 := by omega
  simp only [result, found]
  rw [resendRequest_gap _ begins ends]
  exact resendRequestText_wellFormed_iff _ ordered ends

theorem resendRequest_wellFormed_twentyDigits :
    let result := ((⟨10 ^ 19, 0, 0, 0⟩ : SequenceGapDetector).processSequence
      10000050000000000000).1
    result.resendRequest.WellFormed result.gap (resendFields result.gap) :=
  (resendRequest_wellFormed_iff ⟨10 ^ 19, 0, 0, 0⟩ 10000050000000000000 (by decide)
    (by decide)).mpr (by decide +kernel)

-- The request for the numbers 1 and 2 says that its body has 78 bytes; it has 40.
theorem resendRequest_broken_firstGap :
    let result := ((⟨1, 0, 0, 0⟩ : SequenceGapDetector).processSequence 3).1
    scannedNumbers result.resendRequest.msg 9 = [78] ∧
      FixField.bodyLength (resendFields result.gap) = 40 ∧
      ¬ result.resendRequest.WellFormed result.gap (resendFields result.gap) := by
  intro result
  have length : scannedNumbers result.resendRequest.msg 9 = [78] := by decide +kernel
  have body : FixField.bodyLength (resendFields result.gap) = 40 := by decide +kernel
  refine ⟨length, body, ?_⟩
  intro wellFormed
  have same := wellFormed.bodyLength
  rw [length, body] at same
  exact absurd same (by decide)

end SequenceGapDetector

end HftFixEngine.Protocol
