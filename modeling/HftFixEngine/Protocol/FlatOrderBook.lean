import HftFixEngine.Shared.Slots
import HftFixEngine.Shared.SortedMap

set_option autoImplicit false

namespace HftFixEngine.Protocol

structure PriceLevel where
  priceScaled : Int := 0
  quantity : Nat := 0
  deriving DecidableEq, Repr, Inhabited

structure FlatOrderBook (maxLevels : Nat) (isBid : Bool) where
  levels : Nat → PriceLevel := fun _ => {}
  count : Nat := 0

namespace FlatOrderBook

def PlaceHere (isBid : Bool) (priceScaled other : Int) : Prop :=
  if isBid then priceScaled > other else priceScaled < other

instance (isBid : Bool) : DecidableRel (PlaceHere isBid) :=
  fun _ _ => inferInstanceAs (Decidable (if isBid = true then _ else _))

instance (isBid : Bool) : IsStrictTotalOrder Int (PlaceHere isBid) where
  trichotomous left right forward backward := by
    cases isBid <;> simp only [PlaceHere] at forward backward <;> simp at forward backward <;> omega
  irrefl price := by
    cases isBid <;> simp [PlaceHere]
  trans left middle right := by
    cases isBid <;> simp only [PlaceHere] <;> simp <;> omega

variable {maxLevels : Nat} {isBid : Bool}

def clear (book : FlatOrderBook maxLevels isBid) : FlatOrderBook maxLevels isBid :=
  { book with count := 0 }

def size (book : FlatOrderBook maxLevels isBid) : Nat := book.count

-- A full book gives up on a new price.
def placeAt (book : FlatOrderBook maxLevels isBid) (i : Nat) (priceScaled : Int) (qty : Nat) :
    FlatOrderBook maxLevels isBid :=
  if book.count < maxLevels then
    let shifted := Slots.shiftRight book.levels i (book.count - i)
    { levels := Function.update shifted i { priceScaled, quantity := qty }, count := book.count + 1 }
  else book

-- The scan of `insert_or_update` from cell `i` on, with `rest` cells in use still ahead.
def insertFrom (book : FlatOrderBook maxLevels isBid) (priceScaled : Int) (qty : Nat) (i : Nat) :
    Nat → FlatOrderBook maxLevels isBid
  | 0 =>
    if book.count < maxLevels then
      { levels := Function.update book.levels book.count { priceScaled, quantity := qty }
        count := book.count + 1 }
    else book
  | rest + 1 =>
    if (book.levels i).priceScaled = priceScaled then
      { book with levels := Function.update book.levels i { book.levels i with quantity := qty } }
    else if PlaceHere isBid priceScaled (book.levels i).priceScaled then
      book.placeAt i priceScaled qty
    else insertFrom book priceScaled qty (i + 1) rest

def insertOrUpdate (book : FlatOrderBook maxLevels isBid) (priceScaled : Int) (qty : Nat) :
    FlatOrderBook maxLevels isBid :=
  book.insertFrom priceScaled qty 0 book.count

def eraseFrom (book : FlatOrderBook maxLevels isBid) (priceScaled : Int) (i : Nat) :
    Nat → FlatOrderBook maxLevels isBid
  | 0 => book
  | rest + 1 =>
    if (book.levels i).priceScaled = priceScaled then
      { levels := Slots.closeGap book.levels i (book.count - 1 - i), count := book.count - 1 }
    else eraseFrom book priceScaled (i + 1) rest

def erase (book : FlatOrderBook maxLevels isBid) (priceScaled : Int) :
    FlatOrderBook maxLevels isBid :=
  book.eraseFrom priceScaled 0 book.count

def toList (book : FlatOrderBook maxLevels isBid) : List PriceLevel :=
  Slots.first book.levels book.count

def put (isBid room : Bool) : PriceLevel → List PriceLevel → List PriceLevel :=
  SortedMap.put PriceLevel.priceScaled (PlaceHere isBid) room

@[simp] theorem toList_length (book : FlatOrderBook maxLevels isBid) :
    book.toList.length = book.count :=
  Slots.first_length book.levels book.count

@[simp] theorem toList_clear (book : FlatOrderBook maxLevels isBid) : book.clear.toList = [] := rfl

theorem drop_toList (book : FlatOrderBook maxLevels isBid) {i : Nat} (within : i < book.count) :
    book.toList.drop i = book.levels i :: book.toList.drop (i + 1) := by
  rw [List.drop_eq_getElem_cons (by simpa using within)]
  simp [toList]

theorem toList_placeAt (book : FlatOrderBook maxLevels isBid) {i : Nat} (within : i ≤ book.count)
    (priceScaled : Int) (qty : Nat) :
    (book.placeAt i priceScaled qty).toList =
      if book.count < maxLevels then
        book.toList.take i ++ { priceScaled, quantity := qty } :: book.toList.drop i
      else book.toList := by
  unfold placeAt
  split
  next => exact Slots.first_insert book.levels within _
  next => rfl

theorem toList_insertFrom (book : FlatOrderBook maxLevels isBid) (priceScaled : Int) (qty : Nat)
    (rest : Nat) {i : Nat} (ahead : i + rest = book.count) :
    (book.insertFrom priceScaled qty i rest).toList =
      book.toList.take i ++
        put isBid (decide (book.count < maxLevels)) { priceScaled, quantity := qty }
          (book.toList.drop i) := by
  induction rest generalizing i with
  | zero =>
    obtain rfl : i = book.count := ahead
    have all : book.toList.take book.count = book.toList := List.take_of_length_le (by simp)
    have none : book.toList.drop book.count = [] := List.drop_of_length_le (by simp)
    rw [all, none]
    unfold insertFrom put SortedMap.put
    split
    next room => simpa [room, toList] using Slots.first_push book.levels book.count _
    next full => simp [full]
  | succ rest ih =>
    have within : i < book.count := by omega
    rw [drop_toList book within]
    unfold insertFrom put SortedMap.put
    dsimp only
    split
    next same =>
      have level : { book.levels i with quantity := qty } =
          ({ priceScaled, quantity := qty } : PriceLevel) := by rw [← same]
      rw [level]
      exact Slots.first_set book.levels within _
    next =>
      split
      next =>
        rw [toList_placeAt book (Nat.le_of_lt within)]
        split
        next room => rw [if_pos (decide_eq_true room), drop_toList book within]
        next full =>
          rw [if_neg (by simpa using full), ← drop_toList book within, List.take_append_drop]
      next =>
        have onward := ih (by omega : i + 1 + rest = book.count)
        rw [onward, List.take_succ_eq_append_getElem (by simpa using within), List.append_assoc]
        simp [toList, put]

theorem toList_insertOrUpdate (book : FlatOrderBook maxLevels isBid) (priceScaled : Int)
    (qty : Nat) :
    (book.insertOrUpdate priceScaled qty).toList =
      put isBid (decide (book.count < maxLevels)) { priceScaled, quantity := qty }
        book.toList := by
  have scan := toList_insertFrom book priceScaled qty book.count (Nat.zero_add book.count)
  simpa [insertOrUpdate] using scan

theorem toList_eraseFrom (book : FlatOrderBook maxLevels isBid) (priceScaled : Int) (rest : Nat)
    {i : Nat} (ahead : i + rest = book.count) :
    (book.eraseFrom priceScaled i rest).toList =
      book.toList.take i ++
        SortedMap.remove PriceLevel.priceScaled priceScaled (book.toList.drop i) := by
  induction rest generalizing i with
  | zero =>
    have none : book.toList.drop i = [] := List.drop_of_length_le (by simp; omega)
    rw [none, List.take_of_length_le (by simp; omega)]
    simp [eraseFrom, SortedMap.remove]
  | succ rest ih =>
    have within : i < book.count := by omega
    rw [drop_toList book within]
    unfold eraseFrom
    split
    next same =>
      have closed := Slots.first_closeGap book.levels (Nat.le_sub_one_of_lt within)
      have count : book.count - 1 + 1 = book.count := by omega
      rw [count] at closed
      simpa [SortedMap.remove, same, toList] using closed
    next other =>
      have onward := ih (by omega : i + 1 + rest = book.count)
      rw [onward, List.take_succ_eq_append_getElem (by simpa using within), List.append_assoc]
      simp [toList, SortedMap.remove, other]

theorem toList_erase (book : FlatOrderBook maxLevels isBid) (priceScaled : Int) :
    (book.erase priceScaled).toList =
      SortedMap.remove PriceLevel.priceScaled priceScaled book.toList := by
  have scan := toList_eraseFrom book priceScaled book.count (Nat.zero_add book.count)
  simpa [erase] using scan

end FlatOrderBook

end HftFixEngine.Protocol
