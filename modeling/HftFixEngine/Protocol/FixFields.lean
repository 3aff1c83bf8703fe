import HftFixEngine.Networking.FixProducer
import Mathlib.Data.List.Nodup

set_option autoImplicit false

namespace HftFixEngine.Protocol

open Word Scan

theorem FixParser.parseField_named {name value tail : Bytes} (order : ParsedOrder)
    (inTag : ∀ char, char ∈ name → FixParser.inTag char = true)
    (inValue : ∀ char, char ∈ value → FixParser.inValue char = true)
    (ends : Stops FixParser.inValue tail) :
    FixParser.parseField { rest := name ++ 61 :: (value ++ tail), order := order } =
      { rest := tail.drop 1, order := FixParser.setField order (fromCharsInt name 0) value } := by
  have equals : Stops FixParser.inTag (61 :: (value ++ tail)) := stops_cons (by decide)
  simp only [FixParser.parseField, takeWhile_body inTag equals, dropWhile_body inTag equals,
    List.drop_one, List.tail_cons, takeWhile_body inValue ends, dropWhile_body inValue ends]

structure FixValue where
  bytes : Bytes
  free : ∀ char, char ∈ bytes → char ≠ 1 ∧ char ≠ 124

structure FixField where
  tag : Int
  value : FixValue
  delimiter : UInt8 := 1
  tag_inInt32 : InInt32 tag := by decide
  delimiter_ends : delimiter = 1 ∨ delimiter = 124 := by decide

namespace FixField

def text (field : FixField) : Bytes :=
  toCharsInt field.tag ++ 61 :: field.value.bytes

def assign (order : ParsedOrder) (field : FixField) : ParsedOrder :=
  FixParser.setField order field.tag field.value.bytes

-- The bytes of a message; the last delimiter is left out unless it is `closed`.
def serialize : List FixField → Bool → Bytes
  | [], _ => []
  | [field], closed => field.text ++ if closed then [field.delimiter] else []
  | field :: next :: rest, closed => field.text ++ field.delimiter :: serialize (next :: rest) closed

def parse (fields : List FixField) (closed : Bool) : ParsedOrder :=
  FixParser.parseInPlace (serialize fields closed) (serialize fields closed).length

theorem serialize_closed (fields : List FixField) :
    serialize fields true = fields.flatMap fun field => field.text ++ [field.delimiter] := by
  induction fields with
  | nil => rfl
  | cons field rest ih =>
    cases rest with
    | nil => simp [serialize]
    | cons next rest =>
      rw [serialize, ih, List.flatMap_cons]
      simp

theorem length_le_serialize (fields : List FixField) (closed : Bool) :
    fields.length ≤ (serialize fields closed).length := by
  fun_induction serialize fields closed with
  | case1 => simp
  | case2 closed field =>
    simp only [text, List.length_append, List.length_cons, List.length_nil]
    omega
  | case3 closed field next rest ih =>
    simp only [text, List.length_append, List.length_cons] at ih ⊢
    omega

variable (field : FixField)

theorem inTag_tag : ∀ char, char ∈ toCharsInt field.tag → FixParser.inTag char = true := by
  intro char written
  simp only [FixParser.inTag, decide_eq_true_eq]
  rcases mem_toCharsInt written with rfl | digit
  next => decide
  next => exact ne_of_isDigit digit (by decide)

theorem inValue_value : ∀ char, char ∈ field.value.bytes → FixParser.inValue char = true := by
  intro char inside
  simpa [FixParser.inValue] using field.value.free char inside

theorem inValue_delimiter : FixParser.inValue field.delimiter = false := by
  rcases field.delimiter_ends with soh | bar
  next => simp [FixParser.inValue, soh]
  next => simp [FixParser.inValue, bar]

theorem parseField_text (order : ParsedOrder) (tail : Bytes)
    (ends : Stops FixParser.inValue tail) :
    FixParser.parseField { rest := field.text ++ tail, order := order } =
      { rest := tail.drop 1, order := assign order field } := by
  have split : field.text ++ tail = toCharsInt field.tag ++ 61 :: (field.value.bytes ++ tail) := by
    simp [text]
  rw [split, FixParser.parseField_named order field.inTag_tag field.inValue_value ends,
    fromCharsInt_toCharsInt field.tag field.tag_inInt32]
  rfl

theorem hasField_text (order : ParsedOrder) (tail : Bytes) :
    FixParser.hasField { rest := field.text ++ tail, order := order } = true := by
  simp [FixParser.hasField, text]

theorem serialize_cons (rest : List FixField) (closed : Bool) :
    ∃ tail, serialize (field :: rest) closed = field.text ++ tail ∧
      Stops FixParser.inValue tail ∧ tail.drop 1 = serialize rest closed := by
  cases rest with
  | nil =>
    refine ⟨if closed then [field.delimiter] else [], rfl, ?_, ?_⟩
    next =>
      cases closed with
      | false => exact stops_nil
      | true => exact stops_cons field.inValue_delimiter
    next => cases closed <;> rfl
  | cons next rest =>
    exact ⟨_, rfl, stops_cons field.inValue_delimiter, rfl⟩

theorem run_serialize (fields : List FixField) (closed : Bool) (order : ParsedOrder) (fuel : Nat)
    (enough : fields.length ≤ fuel) :
    (Loop.run FixParser.hasField FixParser.parseField fuel
      { rest := serialize fields closed, order := order }).order = fields.foldl assign order := by
  induction fields generalizing order fuel with
  | nil =>
    rw [Loop.run_of_stopped fuel rfl]
    rfl
  | cons field rest ih =>
    obtain ⟨fuel, rfl⟩ : ∃ more, fuel = more + 1 :=
      ⟨fuel - 1, by simp only [List.length_cons] at enough; omega⟩
    obtain ⟨tail, text, ends, others⟩ := field.serialize_cons rest closed
    rw [List.foldl_cons, text, Loop.run_of_going fuel (field.hasField_text order tail),
      field.parseField_text order tail ends, others]
    exact ih _ _ (by simpa using enough)

theorem parse_eq_foldl (fields : List FixField) (closed : Bool) :
    parse fields closed = fields.foldl assign {} := by
  rw [parse, FixParser.parseInPlace, List.take_length]
  exact run_serialize fields closed {} _ (length_le_serialize fields closed)

def known (tag : Int) : Prop :=
  tag = 35 ∨ tag = 11 ∨ tag = 55 ∨ tag = 54 ∨ tag = 38 ∨ tag = 44 ∨ tag = 34

theorem assign_unknown (order : ParsedOrder) {field : FixField} (other : ¬ known field.tag) :
    assign order field = order := by
  simp only [known, not_or] at other
  simp [assign, FixParser.setField, other]

-- Each tag reads and writes a part of the order that is its own.
theorem assign_comm (order : ParsedOrder) {field other : FixField} (apart : field.tag ≠ other.tag) :
    assign (assign order field) other = assign (assign order other) field := by
  by_cases first : known field.tag
  next =>
    by_cases second : known other.tag
    next =>
      rcases first with tag | tag | tag | tag | tag | tag | tag <;>
        rcases second with otherTag | otherTag | otherTag | otherTag | otherTag | otherTag | otherTag <;>
        first
        | exact absurd (tag.trans otherTag.symm) apart
        | simp only [assign, FixParser.setField, tag, otherTag, Int.reduceEq, if_true, if_false]
    next => rw [assign_unknown _ second, assign_unknown _ second]
  next => rw [assign_unknown _ first, assign_unknown _ first]

theorem foldl_assign_comm (order : ParsedOrder) (field : FixField) (fields : List FixField)
    (apart : ∀ other, other ∈ fields → other.tag ≠ field.tag) :
    fields.foldl assign (assign order field) = assign (fields.foldl assign order) field := by
  induction fields generalizing order with
  | nil => rfl
  | cons other rest ih =>
    rw [List.foldl_cons, List.foldl_cons,
      assign_comm order (Ne.symm (apart other List.mem_cons_self)),
      ih _ fun later member => apart later (List.mem_cons_of_mem _ member)]

theorem foldl_assign_reorder (fields others : List FixField) (order : ParsedOrder)
    (same : ∀ tag, fields.filter (fun field => field.tag = tag) =
      others.filter (fun field => field.tag = tag)) :
    fields.foldl assign order = others.foldl assign order := by
  induction fields generalizing others order with
  | nil =>
    have empty : others = [] := by
      cases others with
      | nil => rfl
      | cons other rest =>
        have none := same other.tag
        simp at none
    rw [empty]
  | cons field rest ih =>
    -- The first field of this tag in the other list is the same one; it can come first there.
    have first := same field.tag
    rw [List.filter_cons_of_pos (by simp)] at first
    obtain ⟨before, after, split, apart, here, later⟩ := List.filter_eq_cons_iff.mp first.symm
    subst split
    have apart' : ∀ other, other ∈ before → other.tag ≠ field.tag := by
      intro other member
      simpa using apart other member
    have rests : ∀ tag, rest.filter (fun field => field.tag = tag) =
        (before ++ after).filter (fun field => field.tag = tag) := by
      intro tag
      have both := same tag
      by_cases own : field.tag = tag
      next =>
        subst own
        have none : before.filter (fun other => other.tag = field.tag) = [] := by
          rw [List.filter_eq_nil_iff]
          exact apart
        rw [List.filter_append, none, List.nil_append, later]
      next => simpa [own] using both
    rw [List.foldl_cons, ih _ _ rests, List.foldl_append, List.foldl_append, List.foldl_cons,
      foldl_assign_comm order field before apart']

theorem foldl_assign_perm {fields others : List FixField} (perm : fields.Perm others)
    (distinct : (fields.map FixField.tag).Nodup) (order : ParsedOrder) :
    fields.foldl assign order = others.foldl assign order := by
  apply perm.foldl_eq'
  intro field member other otherMember start
  by_cases apart : field.tag = other.tag
  next => rw [List.inj_on_of_nodup_map distinct member otherMember apart]
  next => exact assign_comm start apart

theorem foldl_assign_insert (before after : List FixField) {unknown : FixField}
    (other : ¬ known unknown.tag) (order : ParsedOrder) :
    (before ++ unknown :: after).foldl assign order = (before ++ after).foldl assign order := by
  rw [List.foldl_append, List.foldl_cons, assign_unknown _ other, List.foldl_append]

end FixField

namespace FixValue

def literal (text : String)
    (free : ∀ char, char ∈ ascii text → char ≠ 1 ∧ char ≠ 124 := by decide +kernel) :
    FixValue :=
  ⟨ascii text, free⟩

def decimal (number : Nat) : FixValue where
  bytes := toChars number
  free := by
    intro char written
    have digit := isDigit_toChars number char written
    exact ⟨ne_of_isDigit digit (by decide), ne_of_isDigit digit (by decide)⟩

def append (value other : FixValue) : FixValue where
  bytes := value.bytes ++ other.bytes
  free := by
    intro char member
    rcases List.mem_append.mp member with left | right
    next => exact value.free char left
    next => exact other.free char right

end FixValue

def producerOrderId (seqNum : Nat) : FixValue :=
  .append (.literal "ORD_") (.decimal seqNum)

section Template

variable (seqNum clOrdId symbol side quantity price : FixValue)

def templateFields : List FixField :=
  [{ tag := 8, value := .literal "FIX.4.2" },
    { tag := 9, value := .literal "95" },
    { tag := 35, value := .literal "D" },
    { tag := 49, value := .literal "PRODUCER" },
    { tag := 56, value := .literal "ENGINE" },
    { tag := 34, value := seqNum },
    { tag := 52, value := .literal "20260717-18:00:00.000" },
    { tag := 11, value := clOrdId },
    { tag := 55, value := symbol },
    { tag := 54, value := side },
    { tag := 38, value := quantity },
    { tag := 40, value := .literal "2" },
    { tag := 44, value := price },
    { tag := 10, value := .literal "128" }]

def templateText : Bytes :=
  ascii "8=FIX.4.2\x01" ++
    ascii "9=95\x01" ++
    ascii "35=D\x01" ++
    ascii "49=PRODUCER\x01" ++
    ascii "56=ENGINE\x01" ++
    ascii "34=" ++ seqNum.bytes ++ ascii "\x01" ++
    ascii "52=20260717-18:00:00.000\x01" ++
    ascii "11=" ++ clOrdId.bytes ++ ascii "\x01" ++
    ascii "55=" ++ symbol.bytes ++ ascii "\x01" ++
    ascii "54=" ++ side.bytes ++ ascii "\x01" ++
    ascii "38=" ++ quantity.bytes ++ ascii "\x01" ++
    ascii "40=2\x01" ++
    ascii "44=" ++ price.bytes ++ ascii "\x01" ++
    ascii "10=128\x01"

theorem templateText_eq_serialize :
    templateText seqNum clOrdId symbol side quantity price =
      FixField.serialize (templateFields seqNum clOrdId symbol side quantity price) true := by
  have field8 : ascii "8=FIX.4.2\x01" = toCharsInt 8 ++ 61 :: (ascii "FIX.4.2" ++ [1]) := by
    decide +kernel
  have field9 : ascii "9=95\x01" = toCharsInt 9 ++ 61 :: (ascii "95" ++ [1]) := by
    decide +kernel
  have field35 : ascii "35=D\x01" = toCharsInt 35 ++ 61 :: (ascii "D" ++ [1]) := by
    decide +kernel
  have field49 : ascii "49=PRODUCER\x01" = toCharsInt 49 ++ 61 :: (ascii "PRODUCER" ++ [1]) := by
    decide +kernel
  have field56 : ascii "56=ENGINE\x01" = toCharsInt 56 ++ 61 :: (ascii "ENGINE" ++ [1]) := by
    decide +kernel
  have field52 : ascii "52=20260717-18:00:00.000\x01" =
      toCharsInt 52 ++ 61 :: (ascii "20260717-18:00:00.000" ++ [1]) := by
    decide +kernel
  have field40 : ascii "40=2\x01" = toCharsInt 40 ++ 61 :: (ascii "2" ++ [1]) := by
    decide +kernel
  have field10 : ascii "10=128\x01" = toCharsInt 10 ++ 61 :: (ascii "128" ++ [1]) := by
    decide +kernel
  have field34 : ascii "34=" = toCharsInt 34 ++ [61] := by decide +kernel
  have field11 : ascii "11=" = toCharsInt 11 ++ [61] := by decide +kernel
  have field55 : ascii "55=" = toCharsInt 55 ++ [61] := by decide +kernel
  have field54 : ascii "54=" = toCharsInt 54 ++ [61] := by decide +kernel
  have field38 : ascii "38=" = toCharsInt 38 ++ [61] := by decide +kernel
  have field44 : ascii "44=" = toCharsInt 44 ++ [61] := by decide +kernel
  have delimiter : ascii "\x01" = [1] := by decide +kernel
  delta templateText
  rw [FixField.serialize_closed, field8, field9, field35, field49, field56, field52, field40,
    field10, field34, field11, field55, field54, field38, field44, delimiter]
  simp only [templateFields, FixValue.literal, List.flatMap_cons, List.flatMap_nil, FixField.text,
    List.append_assoc, List.cons_append, List.nil_append]

theorem foldl_templateFields :
    (templateFields seqNum clOrdId symbol side quantity price).foldl FixField.assign {} =
      { msgType := [68]
        msgTypeChar := 68
        clOrdId := clOrdId.bytes
        symbol := symbol.bytes
        side := fromCharsInt side.bytes 0
        quantity := fromCharsInt quantity.bytes 0
        price := FixParser.parseFixedPointPrice price.bytes
        seqNum := fromCharsUint64 seqNum.bytes 0 } := by
  simp [templateFields, FixField.assign, FixParser.setField, FixValue.literal, ascii]

end Template

section Producer

open Networking

def producedFields (i : Nat) : List FixField :=
  templateFields (.decimal i) (producerOrderId i) (.literal "PETR4") (.literal "1")
    (.literal "1000") (.literal "35.85")

theorem message_eq_serialize (i : Nat) (inside : i < 2 ^ 64) :
    UdpFixProducer.message i = FixField.serialize (producedFields i) true := by
  have digits : (toChars i).length ≤ 20 := length_toChars_le (by decide) (by omega)
  rw [producedFields, ← templateText_eq_serialize]
  delta UdpFixProducer.message templateText
  rw [List.take_of_length_le]
  next =>
    have id : ascii "11=ORD_" = ascii "11=" ++ ascii "ORD_" := by decide +kernel
    have symbol : ascii "55=PETR4\x01" = ascii "55=" ++ (ascii "PETR4" ++ ascii "\x01") := by
      decide +kernel
    have side : ascii "54=1\x01" = ascii "54=" ++ (ascii "1" ++ ascii "\x01") := by decide +kernel
    have quantity : ascii "38=1000\x01" = ascii "38=" ++ (ascii "1000" ++ ascii "\x01") := by
      decide +kernel
    have price : ascii "44=35.85\x01" = ascii "44=" ++ (ascii "35.85" ++ ascii "\x01") := by
      decide +kernel
    rw [id, symbol, side, quantity, price]
    simp only [producerOrderId, FixValue.decimal, FixValue.append, FixValue.literal, List.append_assoc]
  next =>
    have room : UdpFixProducer.messageRoom = 511 := rfl
    simp [ascii]
    omega

theorem foldl_producedFields (i : Nat) (inside : i < 2 ^ 64) :
    (producedFields i).foldl FixField.assign {} =
      { msgType := ascii "D"
        msgTypeChar := 68
        clOrdId := ascii "ORD_" ++ toChars i
        symbol := ascii "PETR4"
        side := 1
        quantity := 1000
        price := 35850000
        seqNum := i } := by
  have side : fromCharsInt (ascii "1") 0 = 1 := by decide +kernel
  have quantity : fromCharsInt (ascii "1000") 0 = 1000 := by decide +kernel
  have price : FixParser.parseFixedPointPrice (ascii "35.85") = 35850000 := by decide +kernel
  have msgType : ascii "D" = [68] := by decide +kernel
  simp only [producedFields, foldl_templateFields, producerOrderId, FixValue.decimal, FixValue.append,
    FixValue.literal, fromCharsUint64_toChars i inside, side, quantity, price, msgType]

end Producer

theorem fix_parsing_folds_fields (fields : List FixField) (closed : Bool) :
    FixField.parse fields closed = fields.foldl FixField.assign {} ∧
      (∀ (others : List FixField) (ends : Bool),
        (∀ tag, others.filter (fun field => field.tag = tag) =
          fields.filter (fun field => field.tag = tag)) →
        FixField.parse others ends = FixField.parse fields closed) ∧
      (∀ (others : List FixField) (ends : Bool), fields.Perm others →
        (fields.map FixField.tag).Nodup →
        FixField.parse others ends = FixField.parse fields closed) ∧
      (∀ (before after : List FixField) (unknown : FixField) (ends : Bool),
        fields = before ++ after → ¬ FixField.known unknown.tag →
        FixField.parse (before ++ unknown :: after) ends = FixField.parse fields closed) ∧
      (∀ i, i < 2 ^ 64 →
        FixParser.parseInPlace (Networking.UdpFixProducer.message i)
            (Networking.UdpFixProducer.message i).length =
          { msgType := ascii "D"
            msgTypeChar := 68
            clOrdId := ascii "ORD_" ++ toChars i
            symbol := ascii "PETR4"
            side := 1
            quantity := 1000
            price := 35850000
            seqNum := i }) := by
  refine ⟨FixField.parse_eq_foldl fields closed, ?_, ?_, ?_, ?_⟩
  next =>
    intro others ends same
    rw [FixField.parse_eq_foldl, FixField.parse_eq_foldl]
    exact FixField.foldl_assign_reorder others fields {} same
  next =>
    intro others ends perm distinct
    rw [FixField.parse_eq_foldl, FixField.parse_eq_foldl]
    exact (FixField.foldl_assign_perm perm distinct {}).symm
  next =>
    intro before after unknown ends split other
    rw [FixField.parse_eq_foldl, FixField.parse_eq_foldl, split]
    exact FixField.foldl_assign_insert before after other {}
  next =>
    intro i inside
    rw [message_eq_serialize i inside, ← foldl_producedFields i inside]
    exact FixField.parse_eq_foldl _ _

end HftFixEngine.Protocol
