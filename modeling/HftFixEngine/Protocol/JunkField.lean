import HftFixEngine.Protocol.FixFields
import HftFixEngine.Shared.LastWriter

set_option autoImplicit false

namespace HftFixEngine.Protocol

open Word Scan

open LastWriter (Write)

inductive Part where
  | msgType
  | msgTypeChar
  | clOrdId
  | symbol
  | side
  | quantity
  | price
  | seqNum
  deriving DecidableEq, Repr

inductive PartValue where
  | text (bytes : Bytes)
  | char (byte : UInt8)
  | signed (number : Int)
  | unsigned (number : Nat)
  deriving DecidableEq, Repr

def ParsedOrder.part (order : ParsedOrder) : Part → PartValue
  | .msgType => .text order.msgType
  | .msgTypeChar => .char order.msgTypeChar
  | .clOrdId => .text order.clOrdId
  | .symbol => .text order.symbol
  | .side => .signed order.side
  | .quantity => .signed order.quantity
  | .price => .signed order.price
  | .seqNum => .unsigned order.seqNum

theorem ParsedOrder.eq_of_parts {order other : ParsedOrder}
    (latency : order.latencyNs = other.latencyNs) (parts : order.part = other.part) :
    order = other := by
  have each := congrFun parts
  have msgType := PartValue.text.inj (each .msgType)
  have msgTypeChar := PartValue.char.inj (each .msgTypeChar)
  have clOrdId := PartValue.text.inj (each .clOrdId)
  have symbol := PartValue.text.inj (each .symbol)
  have side := PartValue.signed.inj (each .side)
  have quantity := PartValue.signed.inj (each .quantity)
  have price := PartValue.signed.inj (each .price)
  have seqNum := PartValue.unsigned.inj (each .seqNum)
  cases order
  cases other
  simp only at latency msgType msgTypeChar clOrdId symbol side quantity price seqNum
  subst latency msgType msgTypeChar clOrdId symbol side quantity price seqNum
  rfl

def readInt (chars : Bytes) : Option Int :=
  match chars with
  | 45 :: rest =>
    (leadingNumber rest).bind fun number => if InInt32 (-number) then some (-number) else none
  | _ => (leadingNumber chars).bind fun number => if InInt32 number then some number else none

def readUint64 (chars : Bytes) : Option Nat :=
  (leadingNumber chars).bind fun number => if number < 2 ^ 64 then some number else none

theorem ite_getD {α : Type} (p : Prop) [Decidable p] (read value : α) :
    (if p then some read else none).getD value = if p then read else value := by
  split <;> rfl

theorem readInt_of_unsigned {chars : Bytes} (other : ∀ rest, chars ≠ 45 :: rest) :
    readInt chars =
      (leadingNumber chars).bind fun number =>
        if InInt32 number then some (number : Int) else none := by
  unfold readInt
  split
  next rest => exact absurd rfl (other rest)
  next => rfl

theorem fromCharsInt_eq_getD (chars : Bytes) (value : Int) :
    fromCharsInt chars value = (readInt chars).getD value := by
  unfold fromCharsInt
  split
  next rest =>
    rw [readInt]
    split
    next number found => rw [found, Option.bind_some, ite_getD]
    next found => rw [found, Option.bind_none, Option.getD_none]
  next other =>
    rw [readInt_of_unsigned other]
    split
    next number found => rw [found, Option.bind_some, ite_getD]
    next found => rw [found, Option.bind_none, Option.getD_none]

theorem fromCharsUint64_eq_getD (chars : Bytes) (value : Nat) :
    fromCharsUint64 chars value = (readUint64 chars).getD value := by
  unfold fromCharsUint64 readUint64
  split
  next number found => rw [found, Option.bind_some, ite_getD]
  next found => rw [found, Option.bind_none, Option.getD_none]

def fieldWrites (tag : Int) (value : Bytes) : List (Write Part PartValue) :=
  if tag = 35 then
    ⟨.msgType, .text value⟩ :: (value.head?.map fun first => ⟨.msgTypeChar, .char first⟩).toList
  else if tag = 11 then [⟨.clOrdId, .text value⟩]
  else if tag = 55 then [⟨.symbol, .text value⟩]
  else if tag = 54 then ((readInt value).map fun number => ⟨.side, .signed number⟩).toList
  else if tag = 38 then ((readInt value).map fun number => ⟨.quantity, .signed number⟩).toList
  else if tag = 44 then [⟨.price, .signed (FixParser.parseFixedPointPrice value)⟩]
  else if tag = 34 then ((readUint64 value).map fun number => ⟨.seqNum, .unsigned number⟩).toList
  else []

theorem part_setField (order : ParsedOrder) (tag : Int) (value : Bytes) :
    (FixParser.setField order tag value).part =
      LastWriter.applyAll order.part (fieldWrites tag value) := by
  funext part
  unfold FixParser.setField fieldWrites
  split_ifs
  next => cases value <;> cases part <;> rfl
  next => cases part <;> rfl
  next => cases part <;> rfl
  next =>
    rw [fromCharsInt_eq_getD]
    cases readInt value <;> cases part <;> rfl
  next =>
    rw [fromCharsInt_eq_getD]
    cases readInt value <;> cases part <;> rfl
  next => cases part <;> rfl
  next =>
    rw [fromCharsUint64_eq_getD]
    cases readUint64 value <;> cases part <;> rfl
  next => rfl

theorem latencyNs_setField (order : ParsedOrder) (tag : Int) (value : Bytes) :
    (FixParser.setField order tag value).latencyNs = order.latencyNs := by
  unfold FixParser.setField
  split_ifs <;> rfl

theorem fieldWrites_nodup (tag : Int) (value : Bytes) :
    ((fieldWrites tag value).map Write.key).Nodup := by
  unfold fieldWrites
  split_ifs
  next => cases value <;> simp
  next => simp
  next => simp
  next => cases readInt value <;> simp
  next => cases readInt value <;> simp
  next => simp
  next => cases readUint64 value <;> simp
  next => simp

def Part.tag : Part → Int
  | .msgType | .msgTypeChar => 35
  | .clOrdId => 11
  | .symbol => 55
  | .side => 54
  | .quantity => 38
  | .price => 44
  | .seqNum => 34

theorem tag_of_mem_fieldWrites {tag : Int} {value : Bytes} {part : Part}
    (written : part ∈ (fieldWrites tag value).map Write.key) : part.tag = tag := by
  obtain ⟨write, member, rfl⟩ := List.mem_map.mp written
  unfold fieldWrites at member
  split_ifs at member with known known known known known known known
  next =>
    rcases List.mem_cons.mp member with rfl | first
    next => exact known.symm
    next =>
      obtain ⟨char, -, rfl⟩ := Option.map_eq_some_iff.mp (Option.mem_toList.mp first)
      exact known.symm
  next =>
    obtain rfl := List.mem_singleton.mp member
    exact known.symm
  next =>
    obtain rfl := List.mem_singleton.mp member
    exact known.symm
  next =>
    obtain ⟨number, -, rfl⟩ := Option.map_eq_some_iff.mp (Option.mem_toList.mp member)
    exact known.symm
  next =>
    obtain ⟨number, -, rfl⟩ := Option.map_eq_some_iff.mp (Option.mem_toList.mp member)
    exact known.symm
  next =>
    obtain rfl := List.mem_singleton.mp member
    exact known.symm
  next =>
    obtain ⟨number, -, rfl⟩ := Option.map_eq_some_iff.mp (Option.mem_toList.mp member)
    exact known.symm
  next => exact absurd member List.not_mem_nil

theorem fieldWrites_apart {tag other : Int} (apart : tag ≠ other) (value : Bytes) (part : Part)
    (written : part ∈ (fieldWrites tag value).map Write.key) :
    part ∉ (fieldWrites other value).map Write.key := by
  intro again
  exact apart ((tag_of_mem_fieldWrites written).symm.trans (tag_of_mem_fieldWrites again))

structure TaggedField where
  tag : Nat
  value : FixValue
  delimiter : UInt8 := 1
  delimiter_ends : delimiter = 1 ∨ delimiter = 124 := by decide

theorem inTag_delimiter {delimiter : UInt8} (ends : delimiter = 1 ∨ delimiter = 124) :
    FixParser.inTag delimiter = true ∧ FixParser.inValue delimiter = false ∧
      isDigit delimiter = false ∧ delimiter ≠ 45 := by
  rcases ends with rfl | rfl <;> decide

namespace TaggedField

variable (field : TaggedField)

def text : Bytes := toChars field.tag ++ 61 :: field.value.bytes ++ [field.delimiter]

def readTag : Int := fromCharsInt (toChars field.tag) 0

def assign (order : ParsedOrder) (field : TaggedField) : ParsedOrder :=
  FixParser.setField order field.readTag field.value.bytes

def writes : List (Write Part PartValue) := fieldWrites field.readTag field.value.bytes

def serialize (fields : List TaggedField) : Bytes := fields.flatMap text

def parse (fields : List TaggedField) : ParsedOrder :=
  FixParser.parseInPlace (serialize fields) (serialize fields).length

theorem inTag_tag : ∀ char, char ∈ toChars field.tag → FixParser.inTag char = true := by
  intro char written
  have other := ne_of_isDigit (isDigit_toChars field.tag char written) (by decide : isDigit 61 = false)
  simpa [FixParser.inTag] using other

theorem inValue_value : ∀ char, char ∈ field.value.bytes → FixParser.inValue char = true := by
  intro char inside
  simpa [FixParser.inValue] using field.value.free char inside

-- The field may stand behind other text that goes into its tag.
theorem parseField_text {before : Bytes} (order : ParsedOrder) (tail : Bytes)
    (inTag : ∀ char, char ∈ before → FixParser.inTag char = true) :
    FixParser.parseField { rest := before ++ (field.text ++ tail), order := order } =
      { rest := tail
        order := FixParser.setField order (fromCharsInt (before ++ toChars field.tag) 0)
          field.value.bytes } := by
  have split : before ++ (field.text ++ tail) =
      (before ++ toChars field.tag) ++ 61 :: (field.value.bytes ++ field.delimiter :: tail) := by
    simp [text]
  have name : ∀ char, char ∈ before ++ toChars field.tag → FixParser.inTag char = true := by
    intro char member
    rcases List.mem_append.mp member with front | digits
    next => exact inTag char front
    next => exact field.inTag_tag char digits
  have ends : Stops FixParser.inValue (field.delimiter :: tail) :=
    stops_cons (inTag_delimiter field.delimiter_ends).2.1
  rw [split, FixParser.parseField_named order name field.inValue_value ends]
  rfl

theorem hasField_text (before tail : Bytes) (order : ParsedOrder) :
    FixParser.hasField { rest := before ++ (field.text ++ tail), order := order } = true := by
  simp [FixParser.hasField, text]

theorem run_serialize (fields : List TaggedField) (tail : Bytes) (order : ParsedOrder) (fuel : Nat) :
    Loop.run FixParser.hasField FixParser.parseField (fields.length + fuel)
        { rest := serialize fields ++ tail, order := order } =
      Loop.run FixParser.hasField FixParser.parseField fuel
        { rest := tail, order := fields.foldl assign order } := by
  induction fields generalizing order with
  | nil => rw [List.length_nil, Nat.zero_add]; rfl
  | cons field rest ih =>
    have more : (field :: rest).length + fuel = rest.length + fuel + 1 := by
      rw [List.length_cons]
      omega
    have here := @parseField_text field [] order (serialize rest ++ tail) (by simp)
    have going := field.hasField_text [] (serialize rest ++ tail) order
    rw [List.nil_append] at here going
    rw [more, serialize, List.flatMap_cons, List.append_assoc, ← serialize,
      Loop.run_of_going _ going, here]
    exact ih _

theorem length_le_serialize (fields : List TaggedField) :
    fields.length ≤ (serialize fields).length := by
  induction fields with
  | nil => exact Nat.le_refl _
  | cons field rest ih =>
    simp only [serialize, List.flatMap_cons, List.length_append, List.length_cons, text] at ih ⊢
    omega

theorem parse_eq_foldl (fields : List TaggedField) : parse fields = fields.foldl assign {} := by
  obtain ⟨fuel, long⟩ := Nat.exists_eq_add_of_le (length_le_serialize fields)
  have run := run_serialize fields [] {} fuel
  rw [List.append_nil, ← long] at run
  rw [parse, FixParser.parseInPlace, List.take_length, run, Loop.run_of_stopped fuel rfl]

theorem part_foldl_assign (fields : List TaggedField) (order : ParsedOrder) :
    (fields.foldl assign order).part =
      LastWriter.applyAll order.part (fields.flatMap writes) := by
  induction fields generalizing order with
  | nil => rfl
  | cons field rest ih =>
    rw [List.foldl_cons, List.flatMap_cons, LastWriter.applyAll_append, ih]
    exact congrArg (LastWriter.applyAll · _) (part_setField order field.readTag field.value.bytes)

theorem latencyNs_foldl_assign (fields : List TaggedField) (order : ParsedOrder) :
    (fields.foldl assign order).latencyNs = order.latencyNs := by
  induction fields generalizing order with
  | nil => rfl
  | cons field rest ih =>
    rw [List.foldl_cons, ih]
    exact latencyNs_setField order field.readTag field.value.bytes

end TaggedField

structure Junk where
  bytes : Bytes
  delimiter : UInt8 := 1
  free : ∀ char, char ∈ bytes → char ≠ 61 ∧ char ≠ 1 ∧ char ≠ 124
  delimiter_ends : delimiter = 1 ∨ delimiter = 124 := by decide

namespace Junk

variable (junk : Junk)

def text : Bytes := junk.bytes ++ [junk.delimiter]

def tag : Int := fromCharsInt junk.bytes 0

theorem inTag_text : ∀ char, char ∈ junk.text → FixParser.inTag char = true := by
  intro char member
  rcases List.mem_append.mp member with inside | behind
  next => simpa [FixParser.inTag] using (junk.free char inside).1
  next =>
    rw [List.mem_singleton.mp behind]
    exact (inTag_delimiter junk.delimiter_ends).1

theorem leadingNumber_append (chars tail : Bytes) :
    leadingNumber (chars ++ junk.delimiter :: tail) = leadingNumber chars := by
  have other := (inTag_delimiter junk.delimiter_ends).2.2.1
  have stop : (chars ++ junk.delimiter :: tail).takeWhile isDigit = chars.takeWhile isDigit := by
    induction chars with
    | nil => simp [other]
    | cons char rest ih => simp only [List.cons_append, List.takeWhile_cons, ih]
  rw [leadingNumber, leadingNumber, stop]

theorem fromCharsInt_text (tail : Bytes) (value : Int) :
    fromCharsInt (junk.text ++ tail) value = fromCharsInt junk.bytes value := by
  have read (chars : Bytes) := junk.leadingNumber_append chars tail
  rw [fromCharsInt_eq_getD, fromCharsInt_eq_getD, text, List.append_assoc, List.singleton_append]
  congr 1
  cases junk.bytes with
  | nil =>
    have ends : ∀ rest, junk.delimiter :: tail ≠ 45 :: rest := by
      intro rest same
      exact (inTag_delimiter junk.delimiter_ends).2.2.2 (List.cons.inj same).1
    have none := read []
    rw [List.nil_append] at none
    rw [List.nil_append, readInt_of_unsigned ends, readInt_of_unsigned (by simp), none]
  | cons char rest =>
    by_cases dash : char = 45
    next =>
      subst dash
      simp only [List.cons_append, readInt, read]
    next =>
      have other (more others : Bytes) : char :: more ≠ 45 :: others :=
        fun same => dash (List.cons.inj same).1
      rw [List.cons_append, readInt_of_unsigned (other _), readInt_of_unsigned (other _),
        ← List.cons_append, read]

def insert (before after : List TaggedField) : Bytes :=
  TaggedField.serialize before ++ (junk.text ++ TaggedField.serialize after)

def parse (before after : List TaggedField) : ParsedOrder :=
  FixParser.parseInPlace (junk.insert before after) (junk.insert before after).length

-- The field behind the junk is assigned under the junk's number.
theorem parse_eq_foldl (before : List TaggedField) (field : TaggedField)
    (after : List TaggedField) :
    junk.parse before (field :: after) =
      after.foldl TaggedField.assign
        (FixParser.setField (before.foldl TaggedField.assign {}) junk.tag field.value.bytes) := by
  have first := TaggedField.length_le_serialize before
  have last := TaggedField.length_le_serialize (field :: after)
  obtain ⟨fuel, long⟩ : ∃ fuel,
      (junk.insert before (field :: after)).length = before.length + (after.length + fuel + 1) := by
    refine ⟨(junk.insert before (field :: after)).length - before.length - after.length - 1, ?_⟩
    simp only [insert, List.length_append, List.length_cons] at last ⊢
    omega
  have behind : TaggedField.serialize (field :: after) =
      field.text ++ TaggedField.serialize after := List.flatMap_cons
  have rest := TaggedField.run_serialize after []
    (FixParser.setField (before.foldl TaggedField.assign {}) junk.tag field.value.bytes) fuel
  rw [List.append_nil] at rest
  rw [parse, FixParser.parseInPlace, List.take_length, long, insert, TaggedField.run_serialize,
    behind, Loop.run_of_going _ (field.hasField_text _ _ _),
    field.parseField_text _ _ junk.inTag_text, junk.fromCharsInt_text, ← tag, rest,
    Loop.run_of_stopped fuel rfl]

def Harmless (before : List TaggedField) (field : TaggedField) (after : List TaggedField) : Prop :=
  junk.tag = field.readTag ∨
    ∀ write, write ∈ fieldWrites junk.tag field.value.bytes ++ field.writes →
      write.key ∈ (after.flatMap TaggedField.writes).map Write.key ∨
        LastWriter.applyAll (ParsedOrder.part {}) (before.flatMap TaggedField.writes) write.key =
          write.value

theorem parse_unchanged_iff (before : List TaggedField) (field : TaggedField)
    (after : List TaggedField) :
    junk.parse before (field :: after) = TaggedField.parse (before ++ field :: after) ↔
      junk.Harmless before field after := by
  have parts (tag : Int) :
      (after.foldl TaggedField.assign
          (FixParser.setField (before.foldl TaggedField.assign {}) tag field.value.bytes)).part =
        LastWriter.applyAll
          (LastWriter.applyAll (ParsedOrder.part {}) (before.flatMap TaggedField.writes))
          (fieldWrites tag field.value.bytes ++ after.flatMap TaggedField.writes) := by
    rw [TaggedField.part_foldl_assign, part_setField, TaggedField.part_foldl_assign,
      LastWriter.applyAll_append]
  have latency (tag : Int) :
      (after.foldl TaggedField.assign
        (FixParser.setField (before.foldl TaggedField.assign {}) tag field.value.bytes)).latencyNs =
        (before.foldl TaggedField.assign {}).latencyNs := by
    rw [TaggedField.latencyNs_foldl_assign, latencyNs_setField]
  rw [junk.parse_eq_foldl, TaggedField.parse_eq_foldl, List.foldl_append, List.foldl_cons,
    TaggedField.assign]
  by_cases same : junk.tag = field.readTag
  next => simp [Harmless, same]
  next =>
    have replace := LastWriter.applyAll_replace_iff
      (LastWriter.applyAll (ParsedOrder.part {}) (before.flatMap TaggedField.writes))
      (after.flatMap TaggedField.writes) (fieldWrites_nodup junk.tag field.value.bytes)
      (fieldWrites_nodup field.readTag field.value.bytes)
      (fun part => fieldWrites_apart same field.value.bytes part)
    rw [Harmless, or_iff_right same, TaggedField.writes, ← replace, ← parts, ← parts]
    constructor
    next =>
      intro unchanged
      rw [unchanged]
    next =>
      intro unchanged
      exact ParsedOrder.eq_of_parts ((latency junk.tag).trans (latency field.readTag).symm) unchanged

theorem parse_broken_doubledDelimiter :
    let empty : Junk := { bytes := [], free := by simp }
    let symbol : TaggedField := { tag := 55, value := .literal "ITUB4" }
    (empty.parse [] [symbol]).symbol = [] ∧
      (TaggedField.parse [symbol]).symbol = ascii "ITUB4" ∧
      empty.parse [] [symbol] ≠ TaggedField.parse ([] ++ [symbol]) := by
  intro empty symbol
  have lost : (empty.parse [] [symbol]).symbol = [] := by decide +kernel
  have read : (TaggedField.parse [symbol]).symbol = ascii "ITUB4" := by decide +kernel
  refine ⟨lost, read, ?_⟩
  intro unchanged
  have symbols := congrArg ParsedOrder.symbol unchanged
  rw [lost, List.nil_append, read] at symbols
  exact absurd symbols (by decide +kernel)

end Junk

end HftFixEngine.Protocol
