import HftFixEngine.Protocol.FixFields

set_option autoImplicit false

namespace HftFixEngine.Protocol

open Word Scan

namespace FixParser

def scanFields : Nat → Bytes → List (Int × Bytes)
  | 0, _ => []
  | fuel + 1, rest =>
    if rest.contains 61 then
      let fromValue := (rest.dropWhile inTag).drop 1
      (fromCharsInt (rest.takeWhile inTag) 0, fromValue.takeWhile inValue) ::
        scanFields fuel ((fromValue.dropWhile inValue).drop 1)
    else []

theorem run_eq_foldl_scanFields (fuel : Nat) (cursor : Cursor) :
    (Loop.run hasField parseField fuel cursor).order =
      (scanFields fuel cursor.rest).foldl (fun order field => setField order field.1 field.2)
        cursor.order := by
  induction fuel generalizing cursor with
  | zero => rfl
  | succ fuel ih =>
    cases going : hasField cursor with
    | false =>
      have none : cursor.rest.contains 61 = false := going
      rw [Loop.run_of_stopped _ going, scanFields, none]
      rfl
    | true =>
      have some : cursor.rest.contains 61 = true := going
      rw [Loop.run_of_going _ going, ih, scanFields, some]
      rfl

end FixParser

namespace FixField

theorem scanFields_text (field : FixField) (fuel : Nat) {tail : Bytes}
    (ends : Stops FixParser.inValue tail) :
    FixParser.scanFields (fuel + 1) (field.text ++ tail) =
      (field.tag, field.value.bytes) :: FixParser.scanFields fuel (tail.drop 1) := by
  have split : field.text ++ tail = toCharsInt field.tag ++ 61 :: (field.value.bytes ++ tail) := by
    simp [text]
  have equals : Stops FixParser.inTag (61 :: (field.value.bytes ++ tail)) := stops_cons (by decide)
  have found : (field.text ++ tail).contains 61 = true := by simp [text]
  rw [FixParser.scanFields, found, split]
  simp only [if_true, takeWhile_body field.inTag_tag equals, dropWhile_body field.inTag_tag equals,
    List.drop_one, List.tail_cons, takeWhile_body field.inValue_value ends,
    dropWhile_body field.inValue_value ends, fromCharsInt_toCharsInt field.tag field.tag_inInt32]

theorem scanFields_serialize (fields : List FixField) (closed : Bool) (fuel : Nat)
    (enough : fields.length ≤ fuel) :
    FixParser.scanFields fuel (serialize fields closed) =
      fields.map fun field => (field.tag, field.value.bytes) := by
  induction fields generalizing fuel with
  | nil => cases fuel <;> rfl
  | cons field rest ih =>
    obtain ⟨fuel, rfl⟩ : ∃ more, fuel = more + 1 :=
      ⟨fuel - 1, by simp only [List.length_cons] at enough; omega⟩
    obtain ⟨tail, text, ends, others⟩ := field.serialize_cons rest closed
    rw [text, field.scanFields_text fuel ends, others, ih fuel (by simpa using enough),
      List.map_cons]

end FixField

end HftFixEngine.Protocol
