import HftFixEngine.Protocol.FlatOrderBook

set_option autoImplicit false

namespace HftFixEngine.Protocol

inductive LevelCall where
  | insertOrUpdate (priceScaled : Int) (qty : Nat)
  | erase (priceScaled : Int)
  | clear
  deriving DecidableEq, Repr

namespace FlatOrderBook

variable {maxLevels : Nat} {isBid : Bool}

def call (book : FlatOrderBook maxLevels isBid) : LevelCall → FlatOrderBook maxLevels isBid
  | .insertOrUpdate priceScaled qty => book.insertOrUpdate priceScaled qty
  | .erase priceScaled => book.erase priceScaled
  | .clear => book.clear

def run (maxLevels : Nat) (isBid : Bool) (calls : List LevelCall) : FlatOrderBook maxLevels isBid :=
  calls.foldl call {}

def quantityAt (book : FlatOrderBook maxLevels isBid) (priceScaled : Int) : Option Nat :=
  (SortedMap.find PriceLevel.priceScaled priceScaled book.toList).map PriceLevel.quantity

structure Ok (book : FlatOrderBook maxLevels isBid) : Prop where
  sorted : SortedMap.Sorted PriceLevel.priceScaled (PlaceHere isBid) book.toList
  bounded : book.count ≤ maxLevels

end FlatOrderBook

-- A side of a book with the cells of its array that have been stored to, in this order.
structure StoreLog (maxLevels : Nat) (isBid : Bool) where
  book : FlatOrderBook maxLevels isBid := {}
  stores : List Nat := []

namespace StoreLog

open FlatOrderBook (PlaceHere)

variable {maxLevels : Nat} {isBid : Bool}

def store (log : StoreLog maxLevels isBid) (i : Nat) (level : PriceLevel) :
    StoreLog maxLevels isBid where
  book := { log.book with levels := Function.update log.book.levels i level }
  stores := log.stores ++ [i]

def setCount (log : StoreLog maxLevels isBid) (count : Nat) : StoreLog maxLevels isBid :=
  { log with book := { log.book with count } }

def shiftRight (log : StoreLog maxLevels isBid) (i : Nat) : Nat → StoreLog maxLevels isBid
  | 0 => log
  | n + 1 => shiftRight (log.store (i + n + 1) (log.book.levels (i + n))) i n

def closeGap (log : StoreLog maxLevels isBid) (i : Nat) : Nat → StoreLog maxLevels isBid
  | 0 => log
  | n + 1 =>
    let earlier := closeGap log i n
    earlier.store (i + n) (earlier.book.levels (i + n + 1))

def placeAt (log : StoreLog maxLevels isBid) (i : Nat) (priceScaled : Int) (qty : Nat) :
    StoreLog maxLevels isBid :=
  let count := log.book.count
  if count < maxLevels then
    ((log.shiftRight i (count - i)).store i { priceScaled, quantity := qty }).setCount (count + 1)
  else log

def insertFrom (log : StoreLog maxLevels isBid) (priceScaled : Int) (qty : Nat) (i : Nat) :
    Nat → StoreLog maxLevels isBid
  | 0 =>
    let count := log.book.count
    if count < maxLevels then
      (log.store count { priceScaled, quantity := qty }).setCount (count + 1)
    else log
  | rest + 1 =>
    let level := log.book.levels i
    if level.priceScaled = priceScaled then log.store i { level with quantity := qty }
    else if PlaceHere isBid priceScaled level.priceScaled then log.placeAt i priceScaled qty
    else insertFrom log priceScaled qty (i + 1) rest

def eraseFrom (log : StoreLog maxLevels isBid) (priceScaled : Int) (i : Nat) :
    Nat → StoreLog maxLevels isBid
  | 0 => log
  | rest + 1 =>
    let count := log.book.count
    if (log.book.levels i).priceScaled = priceScaled then
      (log.closeGap i (count - 1 - i)).setCount (count - 1)
    else eraseFrom log priceScaled (i + 1) rest

def call (log : StoreLog maxLevels isBid) : LevelCall → StoreLog maxLevels isBid
  | .insertOrUpdate priceScaled qty => log.insertFrom priceScaled qty 0 log.book.count
  | .erase priceScaled => log.eraseFrom priceScaled 0 log.book.count
  | .clear => log.setCount 0

def run (maxLevels : Nat) (isBid : Bool) (calls : List LevelCall) : StoreLog maxLevels isBid :=
  calls.foldl call {}

structure Logs (log : StoreLog maxLevels isBid) (book : FlatOrderBook maxLevels isBid) : Prop where
  same : log.book = book
  inside : ∀ i, i ∈ log.stores → i < maxLevels

namespace Logs

variable {log : StoreLog maxLevels isBid} {book : FlatOrderBook maxLevels isBid}

theorem store (logs : Logs log book) {i : Nat} (inside : i < maxLevels) (level : PriceLevel) :
    Logs (log.store i level) { book with levels := Function.update book.levels i level } := by
  obtain ⟨rfl, earlier⟩ := logs
  refine ⟨rfl, ?_⟩
  intro j member
  rcases List.mem_append.mp member with old | new
  next => exact earlier j old
  next => exact List.mem_singleton.mp new ▸ inside

theorem setCount (logs : Logs log book) (count : Nat) :
    Logs (log.setCount count) { book with count } := by
  obtain ⟨rfl, inside⟩ := logs
  exact ⟨rfl, inside⟩

theorem shiftRight (logs : Logs log book) {i n : Nat} (inside : i + n < maxLevels) :
    Logs (log.shiftRight i n) { book with levels := Slots.shiftRight book.levels i n } := by
  induction n generalizing log book with
  | zero => exact logs
  | succ n ih =>
    have first := logs.store (by omega : i + n + 1 < maxLevels) (log.book.levels (i + n))
    rw [logs.same] at first
    have rest := ih first (by omega)
    rw [← logs.same] at rest ⊢
    exact rest

theorem closeGap (logs : Logs log book) {i n : Nat} (inside : i + n ≤ maxLevels) :
    Logs (log.closeGap i n) { book with levels := Slots.closeGap book.levels i n } := by
  induction n with
  | zero => exact logs
  | succ n ih =>
    have earlier := ih (by omega)
    have last := earlier.store (by omega : i + n < maxLevels)
      ((log.closeGap i n).book.levels (i + n + 1))
    rw [earlier.same] at last
    unfold StoreLog.closeGap
    dsimp only
    rw [earlier.same]
    exact last

theorem placeAt (logs : Logs log book) {i : Nat} (within : i ≤ book.count) (priceScaled : Int)
    (qty : Nat) : Logs (log.placeAt i priceScaled qty) (book.placeAt i priceScaled qty) := by
  unfold StoreLog.placeAt FlatOrderBook.placeAt
  rw [logs.same]
  dsimp only
  split
  next room =>
    have shifted := logs.shiftRight (by omega : i + (book.count - i) < maxLevels)
    exact (shifted.store (by omega) _).setCount _
  next => exact logs

theorem insertFrom (logs : Logs log book) (bounded : book.count ≤ maxLevels) (priceScaled : Int)
    (qty : Nat) {i rest : Nat} (ahead : i + rest = book.count) :
    Logs (log.insertFrom priceScaled qty i rest) (book.insertFrom priceScaled qty i rest) := by
  induction rest generalizing i with
  | zero =>
    unfold StoreLog.insertFrom FlatOrderBook.insertFrom
    rw [logs.same]
    dsimp only
    split
    next room => exact (logs.store room _).setCount _
    next => exact logs
  | succ rest ih =>
    unfold StoreLog.insertFrom FlatOrderBook.insertFrom
    rw [logs.same]
    dsimp only
    split
    next => exact logs.store (by omega) _
    next =>
      split
      next => exact logs.placeAt (by omega) priceScaled qty
      next => exact ih (by omega)

theorem eraseFrom (logs : Logs log book) (bounded : book.count ≤ maxLevels) (priceScaled : Int)
    {i rest : Nat} (ahead : i + rest = book.count) :
    Logs (log.eraseFrom priceScaled i rest) (book.eraseFrom priceScaled i rest) := by
  induction rest generalizing i with
  | zero => exact logs
  | succ rest ih =>
    unfold StoreLog.eraseFrom FlatOrderBook.eraseFrom
    rw [logs.same]
    dsimp only
    split
    next => exact (logs.closeGap (by omega)).setCount _
    next => exact ih (by omega)

theorem call (logs : Logs log book) (bounded : book.count ≤ maxLevels) (call : LevelCall) :
    Logs (log.call call) (book.call call) := by
  cases call with
  | insertOrUpdate priceScaled qty =>
    unfold StoreLog.call
    rw [logs.same]
    exact logs.insertFrom bounded priceScaled qty (Nat.zero_add _)
  | erase priceScaled =>
    unfold StoreLog.call
    rw [logs.same]
    exact logs.eraseFrom bounded priceScaled (Nat.zero_add _)
  | clear => exact logs.setCount 0

end Logs

theorem run_logs (calls : List LevelCall)
    (bounded : ∀ done, done <+: calls →
      (FlatOrderBook.run maxLevels isBid done).count ≤ maxLevels) :
    Logs (run maxLevels isBid calls) (FlatOrderBook.run maxLevels isBid calls) := by
  induction calls using List.reverseRecOn with
  | nil => exact ⟨rfl, by simp [run]⟩
  | append_singleton calls call ih =>
    have earlier := ih fun done early => bounded done (early.trans (List.prefix_append _ _))
    have next := earlier.call (bounded calls (List.prefix_append _ _)) call
    unfold run FlatOrderBook.run at next ⊢
    rw [List.foldl_append, List.foldl_append]
    exact next

end StoreLog

namespace FlatOrderBook

variable {maxLevels : Nat} {isBid : Bool} {book : FlatOrderBook maxLevels isBid}

structure BoundedMap (book : FlatOrderBook maxLevels isBid) : Prop where
  sorted : ∀ i j, i < j → j < book.size →
    PlaceHere isBid (book.levels i).priceScaled (book.levels j).priceScaled
  distinct : ∀ i j, i < book.size → j < book.size →
    (book.levels i).priceScaled = (book.levels j).priceScaled → i = j
  bounded : book.size ≤ maxLevels
  holds : ∀ priceScaled qty, book.quantityAt priceScaled = some qty ↔
    ∃ i, i < book.size ∧ book.levels i = { priceScaled, quantity := qty }
  set : ∀ priceScaled qty,
    (book.quantityAt priceScaled).isSome = true ∨ book.size < maxLevels →
    (book.insertOrUpdate priceScaled qty).quantityAt =
      Function.update book.quantityAt priceScaled (some qty)
  refused : ∀ priceScaled qty,
    ¬ ((book.quantityAt priceScaled).isSome = true ∨ book.size < maxLevels) →
    book.insertOrUpdate priceScaled qty = book
  erased : ∀ priceScaled,
    (book.erase priceScaled).quantityAt = Function.update book.quantityAt priceScaled none
  absent : ∀ priceScaled, book.quantityAt priceScaled = none → book.erase priceScaled = book
  cleared : book.clear.quantityAt = fun _ => none

theorem quantityAt_isSome (priceScaled : Int) :
    (book.quantityAt priceScaled).isSome = true ↔
      priceScaled ∈ book.toList.map PriceLevel.priceScaled := by
  rw [quantityAt, Option.isSome_map, SortedMap.find_isSome]

theorem mem_prices {priceScaled : Int} :
    priceScaled ∈ book.toList.map PriceLevel.priceScaled ↔
      ∃ i, i < book.count ∧ (book.levels i).priceScaled = priceScaled := by
  simp [toList, Slots.first]

-- A full book passes over the levels of all other prices and is left as it was.
theorem insertFrom_refused {priceScaled : Int} {qty rest : Nat} (full : ¬ book.count < maxLevels) :
    ∀ i, (∀ j, i ≤ j → j < i + rest → (book.levels j).priceScaled ≠ priceScaled) →
      book.insertFrom priceScaled qty i rest = book := by
  induction rest with
  | zero =>
    intro i _
    exact if_neg full
  | succ rest ih =>
    intro i others
    unfold insertFrom placeAt
    rw [if_neg (others i (Nat.le_refl _) (by omega)), if_neg full]
    split
    next => rfl
    next => exact ih (i + 1) fun j above below => others j (by omega) (by omega)

theorem eraseFrom_absent {priceScaled : Int} {rest : Nat} :
    ∀ i, (∀ j, i ≤ j → j < i + rest → (book.levels j).priceScaled ≠ priceScaled) →
      book.eraseFrom priceScaled i rest = book := by
  induction rest with
  | zero => exact fun _ _ => rfl
  | succ rest ih =>
    intro i others
    unfold eraseFrom
    rw [if_neg (others i (Nat.le_refl _) (by omega))]
    exact ih (i + 1) fun j above below => others j (by omega) (by omega)

theorem others_of_absent {priceScaled : Int}
    (absent : ¬ (book.quantityAt priceScaled).isSome = true) :
    ∀ j, 0 ≤ j → j < 0 + book.count → (book.levels j).priceScaled ≠ priceScaled := by
  rw [quantityAt_isSome, mem_prices] at absent
  intro j _ below same
  exact absent ⟨j, by omega, same⟩

namespace Ok

theorem start : Ok ({} : FlatOrderBook maxLevels isBid) :=
  ⟨List.Pairwise.nil, Nat.zero_le _⟩

theorem call (ok : Ok book) (call : LevelCall) : Ok (book.call call) := by
  cases call with
  | insertOrUpdate priceScaled qty =>
    have placed := toList_insertOrUpdate book priceScaled qty
    rw [← toList_length, put] at placed
    refine ⟨?_, ?_⟩
    next =>
      unfold FlatOrderBook.call
      rw [placed]
      exact SortedMap.sorted_put _ _ ok.sorted
    next =>
      rw [← toList_length]
      unfold FlatOrderBook.call
      rw [placed]
      exact SortedMap.put_length_bounded _ (by simpa using ok.bounded)
  | erase priceScaled =>
    have gone := toList_erase book priceScaled
    refine ⟨?_, ?_⟩
    next =>
      unfold FlatOrderBook.call
      rw [gone]
      exact SortedMap.sorted_remove _ ok.sorted
    next =>
      rw [← toList_length]
      unfold FlatOrderBook.call
      rw [gone]
      refine (SortedMap.remove_sublist _ _).length_le.trans ?_
      simpa using ok.bounded
  | clear => exact ⟨List.Pairwise.nil, Nat.zero_le _⟩

theorem run (calls : List LevelCall) : Ok (run maxLevels isBid calls) :=
  List.foldlRecOn calls _ start fun _ ok call _ => ok.call call

theorem placeHere (ok : Ok book) {i j : Nat} (order : i < j) (within : j < book.size) :
    PlaceHere isBid (book.levels i).priceScaled (book.levels j).priceScaled := by
  have short : j < book.toList.length := by
    rw [toList_length]
    exact within
  simpa [toList] using List.pairwise_iff_getElem.mp ok.sorted i j (by omega) short order

theorem priceScaled_inj (ok : Ok book) {i j : Nat} (left : i < book.size) (right : j < book.size)
    (same : (book.levels i).priceScaled = (book.levels j).priceScaled) : i = j := by
  rcases Nat.lt_trichotomy i j with before | here | behind
  next =>
    have less := ok.placeHere before right
    rw [same] at less
    exact absurd less (irrefl_of (PlaceHere isBid) _)
  next => exact here
  next =>
    have less := ok.placeHere behind left
    rw [same] at less
    exact absurd less (irrefl_of (PlaceHere isBid) _)

theorem quantityAt_eq_some (ok : Ok book) {priceScaled : Int} {qty : Nat} :
    book.quantityAt priceScaled = some qty ↔
      ∃ i, i < book.size ∧ book.levels i = { priceScaled, quantity := qty } := by
  constructor
  next =>
    intro found
    obtain ⟨level, here, rfl⟩ := Option.map_eq_some_iff.mp found
    obtain ⟨i, within, same⟩ := List.mem_map.mp (SortedMap.find_mem here)
    refine ⟨i, List.mem_range.mp within, ?_⟩
    rw [same, ← SortedMap.find_key here]
  next =>
    rintro ⟨i, within, here⟩
    have member : book.levels i ∈ book.toList :=
      List.mem_map.mpr ⟨i, List.mem_range.mpr within, rfl⟩
    have found := SortedMap.find_of_mem ok.sorted member
    rw [here] at found
    rw [quantityAt, found]
    rfl

theorem quantityAt_insertOrUpdate (ok : Ok book) {priceScaled : Int} (qty : Nat)
    (fits : (book.quantityAt priceScaled).isSome = true ∨ book.size < maxLevels) :
    (book.insertOrUpdate priceScaled qty).quantityAt =
      Function.update book.quantityAt priceScaled (some qty) := by
  rw [quantityAt_isSome] at fits
  have room : decide (book.count < maxLevels) = true ∨
      priceScaled ∈ book.toList.map PriceLevel.priceScaled :=
    fits.symm.imp_left fun room => decide_eq_true room
  funext price
  rw [quantityAt, toList_insertOrUpdate, put, SortedMap.find_put ok.sorted room price,
    Function.update_apply]
  simp only [eq_comm]
  split <;> rfl

theorem quantityAt_erase (ok : Ok book) (priceScaled : Int) :
    (book.erase priceScaled).quantityAt = Function.update book.quantityAt priceScaled none := by
  funext price
  rw [quantityAt, toList_erase, SortedMap.find_remove ok.sorted, Function.update_apply]
  simp only [eq_comm]
  split <;> rfl

theorem boundedMap (ok : Ok book) : BoundedMap book where
  sorted _ _ := ok.placeHere
  distinct _ _ := ok.priceScaled_inj
  bounded := ok.bounded
  holds _ _ := ok.quantityAt_eq_some
  set _ qty := ok.quantityAt_insertOrUpdate qty
  refused _ _ refused :=
    insertFrom_refused (fun room => refused (.inr room)) 0
      (others_of_absent fun present => refused (.inl present))
  erased := ok.quantityAt_erase
  absent _ absent := eraseFrom_absent 0 (others_of_absent (by simp [absent]))
  cleared := rfl

end Ok

theorem run_boundedMap (maxLevels : Nat) (isBid : Bool) (calls : List LevelCall) :
    BoundedMap (run maxLevels isBid calls) ∧
      (StoreLog.run maxLevels isBid calls).book = run maxLevels isBid calls ∧
      ∀ i, i ∈ (StoreLog.run maxLevels isBid calls).stores → i < maxLevels := by
  have logs : StoreLog.Logs (StoreLog.run maxLevels isBid calls) (run maxLevels isBid calls) :=
    StoreLog.run_logs calls fun done _ => (Ok.run done).bounded
  exact ⟨(Ok.run calls).boundedMap, logs.same, logs.inside⟩

example :
    (run 2 true [.insertOrUpdate 10 1, .insertOrUpdate 12 2, .insertOrUpdate 11 3, .erase 12,
      .insertOrUpdate 11 4]).toList = [⟨11, 4⟩, ⟨10, 1⟩] := by
  decide

end FlatOrderBook

end HftFixEngine.Protocol
