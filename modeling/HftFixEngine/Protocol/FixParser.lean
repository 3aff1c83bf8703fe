import HftFixEngine.Protocol.ParsedOrder
import HftFixEngine.Shared.Loop
import Mathlib.Data.List.TakeWhile

set_option autoImplicit false

namespace HftFixEngine.Protocol

open Word

def isDigit (char : UInt8) : Bool := decide (48 ≤ char) && decide (char ≤ 57)

def digitValue (char : UInt8) : Nat := char.toNat - 48

def leadingNumber (chars : Bytes) : Option Nat :=
  let digits := chars.takeWhile isDigit
  if digits.isEmpty then none
  else some (digits.foldl (fun number char => number * 10 + digitValue char) 0)

-- Without a number, or with one out of range, the value is left as it was.
def fromCharsInt (chars : Bytes) (value : Int) : Int :=
  match chars with
  | 45 :: rest =>
    match leadingNumber rest with
    | some number => if InInt32 (-number) then -number else value
    | none => value
  | _ =>
    match leadingNumber chars with
    | some number => if InInt32 number then number else value
    | none => value

def fromCharsUint64 (chars : Bytes) (value : Nat) : Nat :=
  match leadingNumber chars with
  | some number => if number < 2 ^ 64 then number else value
  | none => value

namespace FixParser

def integerPart (chars : Bytes) : Int :=
  (chars.takeWhile isDigit).foldl
    (fun number char => wrapInt64 (wrapInt64 (number * 10) + digitValue char)) 0

-- The digits behind the point, until the multiplier is used up.
def addFraction : Bytes → Int → Int → Int
  | [], value, _ => value
  | char :: rest, value, multiplier =>
    if isDigit char ∧ 0 < multiplier then
      addFraction rest (wrapInt64 (value + digitValue char * multiplier)) (multiplier / 10)
    else value

def unsignedPrice (chars : Bytes) : Int :=
  let value := wrapInt64 (integerPart chars * 1000000)
  match chars.dropWhile isDigit with
  | 46 :: fraction => addFraction fraction value 100000
  | _ => value

def parseFixedPointPrice (chars : Bytes) : Int :=
  match chars with
  | 45 :: rest => wrapInt64 (-unsignedPrice rest)
  | _ => unsignedPrice chars

def setField (order : ParsedOrder) (tag : Int) (value : Bytes) : ParsedOrder :=
  if tag = 35 then
    { order with msgType := value, msgTypeChar := value.head?.getD order.msgTypeChar }
  else if tag = 11 then { order with clOrdId := value }
  else if tag = 55 then { order with symbol := value }
  else if tag = 54 then { order with side := fromCharsInt value order.side }
  else if tag = 38 then { order with quantity := fromCharsInt value order.quantity }
  else if tag = 44 then { order with price := parseFixedPointPrice value }
  else if tag = 34 then { order with seqNum := fromCharsUint64 value order.seqNum }
  else order

structure Cursor where
  rest : Bytes
  order : ParsedOrder

def inTag (char : UInt8) : Bool := decide (char ≠ 61)

def inValue (char : UInt8) : Bool := decide (char ≠ 1) && decide (char ≠ 124)

-- The `while` condition together with the `break` when no '=' is left.
def hasField (cursor : Cursor) : Bool := cursor.rest.contains 61

def parseField (cursor : Cursor) : Cursor :=
  let tag := fromCharsInt (cursor.rest.takeWhile inTag) 0
  let fromValue := (cursor.rest.dropWhile inTag).drop 1
  { rest := (fromValue.dropWhile inValue).drop 1
    order := setField cursor.order tag (fromValue.takeWhile inValue) }

def parseInPlace (buffer : Bytes) (len : Nat) : ParsedOrder :=
  (Loop.run hasField parseField len { rest := buffer.take len, order := {} }).order

end FixParser

structure ParsedOrder.WellTyped (order : ParsedOrder) : Prop where
  side : InInt32 order.side
  quantity : InInt32 order.quantity
  price : InInt64 order.price
  seqNum : order.seqNum < 2 ^ 64

theorem defaultOrder_wellTyped : ParsedOrder.WellTyped {} := by
  constructor <;> simp [InInt32, InInt64]

theorem fromCharsInt_inInt32 (chars : Bytes) {value : Int} (inside : InInt32 value) :
    InInt32 (fromCharsInt chars value) := by
  unfold fromCharsInt
  split
  next =>
    split
    next =>
      split_ifs with fits
      next => exact fits
      next => exact inside
    next => exact inside
  next =>
    split
    next =>
      split_ifs with fits
      next => exact fits
      next => exact inside
    next => exact inside

theorem fromCharsUint64_lt (chars : Bytes) {value : Nat} (inside : value < 2 ^ 64) :
    fromCharsUint64 chars value < 2 ^ 64 := by
  unfold fromCharsUint64
  split
  next => split <;> assumption
  next => exact inside

namespace FixParser

theorem addFraction_inInt64 (chars : Bytes) {value : Int} (multiplier : Int)
    (inside : InInt64 value) : InInt64 (addFraction chars value multiplier) := by
  induction chars generalizing value multiplier with
  | nil => exact inside
  | cons char rest ih =>
      unfold addFraction
      split
      next => exact ih _ (wrapInt64_inInt64 _)
      next => exact inside

theorem unsignedPrice_inInt64 (chars : Bytes) : InInt64 (unsignedPrice chars) := by
  unfold unsignedPrice
  split
  next => exact addFraction_inInt64 _ _ (wrapInt64_inInt64 _)
  next => exact wrapInt64_inInt64 _

theorem parseFixedPointPrice_inInt64 (chars : Bytes) : InInt64 (parseFixedPointPrice chars) := by
  unfold parseFixedPointPrice
  split
  next => exact wrapInt64_inInt64 _
  next => exact unsignedPrice_inInt64 _

theorem setField_wellTyped {order : ParsedOrder} (typed : order.WellTyped) (tag : Int)
    (value : Bytes) : (setField order tag value).WellTyped := by
  obtain ⟨side, quantity, price, seqNum⟩ := typed
  unfold setField
  split_ifs
  next => exact ⟨side, quantity, price, seqNum⟩
  next => exact ⟨side, quantity, price, seqNum⟩
  next => exact ⟨side, quantity, price, seqNum⟩
  next => exact ⟨fromCharsInt_inInt32 value side, quantity, price, seqNum⟩
  next => exact ⟨side, fromCharsInt_inInt32 value quantity, price, seqNum⟩
  next => exact ⟨side, quantity, parseFixedPointPrice_inInt64 value, seqNum⟩
  next => exact ⟨side, quantity, price, fromCharsUint64_lt value seqNum⟩
  next => exact ⟨side, quantity, price, seqNum⟩

theorem parseInPlace_wellTyped (buffer : Bytes) (len : Nat) :
    (parseInPlace buffer len).WellTyped := by
  refine Loop.run_invariant (fun cursor : Cursor => cursor.order.WellTyped) ?_ len
    defaultOrder_wellTyped
  intro cursor typed _
  exact setField_wellTyped typed _ _

theorem parseInPlace_exits (buffer : Bytes) (len : Nat) :
    hasField (Loop.run hasField parseField len { rest := buffer.take len, order := {} }) = false := by
  refine Loop.run_exits (fun _ => True) (fun cursor : Cursor => cursor.rest.length)
    (fun _ _ _ => trivial) ?_ len trivial (List.length_take_le _ _)
  intro cursor _ going
  have found : 61 ∈ cursor.rest := by simpa [hasField] using going
  have ahead : 0 < (cursor.rest.dropWhile inTag).length := by
    rw [List.length_pos_iff, ne_eq, List.dropWhile_eq_nil_iff]
    intro all
    simpa [inTag] using all 61 found
  have fromValue := (List.dropWhile_sublist inValue
    (l := (cursor.rest.dropWhile inTag).drop 1)).length_le
  have fromTag := (List.dropWhile_sublist inTag (l := cursor.rest)).length_le
  simp only [parseField, List.length_drop] at fromValue ⊢
  omega

end FixParser

end HftFixEngine.Protocol
