import HftFixEngine.Protocol.FlatOrderBook
import HftFixEngine.Protocol.ParsedOrder

set_option autoImplicit false

namespace HftFixEngine.Protocol

open Word

inductive RecoveryState where
  | recovering
  | synchronized
  deriving DecidableEq, Repr

-- The action is one of the characters 0 (add), 1 (modify) and 2 (delete), or any other byte.
structure IncrementalUpdate where
  seqNum : Nat := 0
  symbol : Bytes := []
  priceScaled : Int := 0
  quantity : Nat := 0
  action : UInt8 := 48
  deriving DecidableEq, Repr

structure BookSnapshot where
  snapshotLastSeq : Nat := 0
  symbol : Bytes := []
  bids : List PriceLevel := []
  asks : List PriceLevel := []
  deriving DecidableEq, Repr

def maxLevels : Nat := 1024

structure OrderBookRecoveryManager where
  symbol : Bytes
  state : RecoveryState := .recovering
  lastAppliedSeq : Nat := 0
  snapshotApplied : Bool := false
  bids : FlatOrderBook maxLevels true := {}
  asks : FlatOrderBook maxLevels false := {}
  bufferedIncrementals : List IncrementalUpdate := []
  incrementalsBufferedCount : Nat := 0
  incrementalsReplayedCount : Nat := 0
  incrementalsDiscardedCount : Nat := 0

namespace OrderBookRecoveryManager

def create (symbol : Bytes) : OrderBookRecoveryManager := { symbol }

-- An update has no side: it always goes to the bids.
def applyIncremental (manager : OrderBookRecoveryManager) (update : IncrementalUpdate) :
    OrderBookRecoveryManager :=
  if update.action = 48 ∨ update.action = 49 then
    { manager with bids := manager.bids.insertOrUpdate update.priceScaled update.quantity }
  else if update.action = 50 then
    { manager with bids := manager.bids.erase update.priceScaled }
  else manager

-- The result tells whether the update was applied at once.
def processIncremental (manager : OrderBookRecoveryManager) (update : IncrementalUpdate) :
    Bool × OrderBookRecoveryManager :=
  if manager.state = .recovering then
    (false,
      { manager with
        bufferedIncrementals := manager.bufferedIncrementals ++ [update]
        incrementalsBufferedCount := u64 (manager.incrementalsBufferedCount + 1) })
  else (true, { manager.applyIncremental update with lastAppliedSeq := update.seqNum })

structure Replay where
  manager : OrderBookRecoveryManager
  replayedCount : Nat := 0
  discardedCount : Nat := 0

def loadSide {isBid : Bool} (book : FlatOrderBook maxLevels isBid) (levels : List PriceLevel) :
    FlatOrderBook maxLevels isBid :=
  levels.foldl (fun book lvl => book.insertOrUpdate lvl.priceScaled lvl.quantity) book.clear

def loadSnapshot (manager : OrderBookRecoveryManager) (snapshot : BookSnapshot) :
    OrderBookRecoveryManager :=
  { manager with
    bids := loadSide manager.bids snapshot.bids
    asks := loadSide manager.asks snapshot.asks
    lastAppliedSeq := snapshot.snapshotLastSeq
    snapshotApplied := true }

def replayOne (snapshot : BookSnapshot) (replay : Replay) (inc : IncrementalUpdate) : Replay :=
  if inc.seqNum ≤ snapshot.snapshotLastSeq then
    { replay with discardedCount := u64 (replay.discardedCount + 1) }
  else
    { replay with
      manager := { replay.manager.applyIncremental inc with lastAppliedSeq := inc.seqNum }
      replayedCount := u64 (replay.replayedCount + 1) }

def replayed (manager : OrderBookRecoveryManager) (snapshot : BookSnapshot)
    (incs : List IncrementalUpdate) : Replay :=
  incs.foldl (replayOne snapshot) { manager := manager.loadSnapshot snapshot }

def applySnapshot (manager : OrderBookRecoveryManager) (snapshot : BookSnapshot) :
    Nat × OrderBookRecoveryManager :=
  let replay := manager.replayed snapshot manager.bufferedIncrementals
  (replay.replayedCount,
    { replay.manager with
      incrementalsDiscardedCount := replay.discardedCount
      incrementalsReplayedCount := replay.replayedCount
      bufferedIncrementals := []
      state := .synchronized })

def triggerRecovery (manager : OrderBookRecoveryManager) : OrderBookRecoveryManager :=
  { manager with state := .recovering, bufferedIncrementals := [] }

end OrderBookRecoveryManager

inductive RecoveryEvent where
  | incremental (update : IncrementalUpdate)
  | snapshot (image : BookSnapshot)
  | triggerRecovery

namespace OrderBookRecoveryManager

def step (manager : OrderBookRecoveryManager) : RecoveryEvent → OrderBookRecoveryManager
  | .incremental update => (manager.processIncremental update).2
  | .snapshot image => (manager.applySnapshot image).2
  | .triggerRecovery => manager.triggerRecovery

def run (manager : OrderBookRecoveryManager) (events : List RecoveryEvent) :
    OrderBookRecoveryManager :=
  events.foldl step manager

@[simp] theorem run_cons (manager : OrderBookRecoveryManager) (event : RecoveryEvent)
    (events : List RecoveryEvent) : manager.run (event :: events) = (manager.step event).run events :=
  rfl

theorem run_append (manager : OrderBookRecoveryManager) (events later : List RecoveryEvent) :
    manager.run (events ++ later) = (manager.run events).run later :=
  List.foldl_append

end OrderBookRecoveryManager

def insertLevel (isBid : Bool) (side : List PriceLevel) (lvl : PriceLevel) : List PriceLevel :=
  FlatOrderBook.put isBid (decide (side.length < maxLevels)) lvl side

def loadLevels (isBid : Bool) (levels : List PriceLevel) : List PriceLevel :=
  levels.foldl (insertLevel isBid) []

def amend (side : List PriceLevel) (update : IncrementalUpdate) : List PriceLevel :=
  if update.action = 48 ∨ update.action = 49 then
    insertLevel true side { priceScaled := update.priceScaled, quantity := update.quantity }
  else if update.action = 50 then
    SortedMap.remove PriceLevel.priceScaled update.priceScaled side
  else side

structure RecoveredBook where
  bids : List PriceLevel
  asks : List PriceLevel
  lastAppliedSeq : Nat
  deriving DecidableEq, Repr

namespace RecoveredBook

def ofSnapshot (snapshot : BookSnapshot) : RecoveredBook where
  bids := loadLevels true snapshot.bids
  asks := loadLevels false snapshot.asks
  lastAppliedSeq := snapshot.snapshotLastSeq

def apply (book : RecoveredBook) (update : IncrementalUpdate) : RecoveredBook :=
  { book with bids := amend book.bids update, lastAppliedSeq := update.seqNum }

def applyAll (book : RecoveredBook) (updates : List IncrementalUpdate) : RecoveredBook :=
  updates.foldl apply book

theorem applyAll_eq (book : RecoveredBook) (updates : List IncrementalUpdate) :
    book.applyAll updates =
      { bids := updates.foldl amend book.bids
        asks := book.asks
        lastAppliedSeq := (updates.map IncrementalUpdate.seqNum).getLastD book.lastAppliedSeq } := by
  induction updates generalizing book with
  | nil => rfl
  | cons update updates ih =>
    have first : book.applyAll (update :: updates) = (book.apply update).applyAll updates := rfl
    rw [first, ih, List.map_cons, List.getLastD_cons]
    rfl

end RecoveredBook

def BookSnapshot.fresh (snapshot : BookSnapshot) (incs : List IncrementalUpdate) :
    List IncrementalUpdate :=
  incs.filter fun inc => snapshot.snapshotLastSeq < inc.seqNum

theorem BookSnapshot.fresh_append (snapshot : BookSnapshot) (incs later : List IncrementalUpdate) :
    snapshot.fresh (incs ++ later) = snapshot.fresh incs ++ snapshot.fresh later :=
  List.filter_append incs later

namespace OrderBookRecoveryManager

def book (manager : OrderBookRecoveryManager) : RecoveredBook where
  bids := manager.bids.toList
  asks := manager.asks.toList
  lastAppliedSeq := manager.lastAppliedSeq

theorem toList_insertLevel {isBid : Bool} (book : FlatOrderBook maxLevels isBid) (lvl : PriceLevel) :
    (book.insertOrUpdate lvl.priceScaled lvl.quantity).toList = insertLevel isBid book.toList lvl := by
  rw [FlatOrderBook.toList_insertOrUpdate, insertLevel, FlatOrderBook.toList_length]

theorem toList_loadSide {isBid : Bool} (book : FlatOrderBook maxLevels isBid)
    (levels : List PriceLevel) : (loadSide book levels).toList = loadLevels isBid levels := by
  unfold loadSide loadLevels
  rw [← FlatOrderBook.toList_clear book]
  generalize book.clear = cleared
  induction levels generalizing cleared with
  | nil => rfl
  | cons lvl levels ih =>
    rw [List.foldl_cons, List.foldl_cons, ih, toList_insertLevel]

theorem toList_amend (manager : OrderBookRecoveryManager) (update : IncrementalUpdate) :
    (manager.applyIncremental update).bids.toList = amend manager.bids.toList update := by
  unfold applyIncremental amend
  split
  next =>
    exact toList_insertLevel manager.bids
      { priceScaled := update.priceScaled, quantity := update.quantity }
  next =>
    split
    next => exact FlatOrderBook.toList_erase manager.bids update.priceScaled
    next => rfl

theorem applyIncremental_frame (manager : OrderBookRecoveryManager) (update : IncrementalUpdate) :
    manager.applyIncremental update =
      { manager with bids := (manager.applyIncremental update).bids } := by
  unfold applyIncremental
  split_ifs <;> rfl

theorem book_applied (manager : OrderBookRecoveryManager) (update : IncrementalUpdate) :
    book { manager.applyIncremental update with lastAppliedSeq := update.seqNum } =
      manager.book.apply update := by
  unfold book RecoveredBook.apply
  rw [toList_amend]
  rw [applyIncremental_frame]

theorem processIncremental_recovering {manager : OrderBookRecoveryManager}
    (recovering : manager.state = .recovering) (update : IncrementalUpdate) :
    (manager.processIncremental update).2 =
      { manager with
        bufferedIncrementals := manager.bufferedIncrementals ++ [update]
        incrementalsBufferedCount := u64 (manager.incrementalsBufferedCount + 1) } := by
  rw [processIncremental, if_pos recovering]

theorem processIncremental_synchronized {manager : OrderBookRecoveryManager}
    (synchronized : manager.state = .synchronized) (update : IncrementalUpdate) :
    (manager.processIncremental update).2 =
      { manager with
        bids := (manager.applyIncremental update).bids, lastAppliedSeq := update.seqNum } := by
  rw [processIncremental, if_neg (by simp [synchronized]), applyIncremental_frame]

theorem book_processIncremental {manager : OrderBookRecoveryManager}
    (synchronized : manager.state = .synchronized) (update : IncrementalUpdate) :
    (manager.processIncremental update).2.book = manager.book.apply update := by
  rw [processIncremental, if_neg (by simp [synchronized])]
  exact book_applied manager update

theorem book_loadSnapshot (manager : OrderBookRecoveryManager) (snapshot : BookSnapshot) :
    (manager.loadSnapshot snapshot).book = RecoveredBook.ofSnapshot snapshot := by
  simp [book, loadSnapshot, RecoveredBook.ofSnapshot, toList_loadSide]

theorem book_replayOne (snapshot : BookSnapshot) (replay : Replay) (inc : IncrementalUpdate) :
    (replayOne snapshot replay inc).manager.book =
      replay.manager.book.applyAll (snapshot.fresh [inc]) := by
  unfold replayOne BookSnapshot.fresh
  split
  next stale => simp [stale, RecoveredBook.applyAll]
  next newer =>
    have listed : snapshot.snapshotLastSeq < inc.seqNum := by omega
    simpa [listed, RecoveredBook.applyAll] using book_applied replay.manager inc

theorem book_replayed (manager : OrderBookRecoveryManager) (snapshot : BookSnapshot)
    (incs : List IncrementalUpdate) :
    (manager.replayed snapshot incs).manager.book =
      (RecoveredBook.ofSnapshot snapshot).applyAll (snapshot.fresh incs) := by
  unfold replayed
  rw [← book_loadSnapshot manager snapshot]
  generalize start : ({ manager := manager.loadSnapshot snapshot } : Replay) = replay
  rw [show manager.loadSnapshot snapshot = replay.manager by rw [← start]]
  clear start
  induction incs generalizing replay with
  | nil => rfl
  | cons inc incs ih =>
    have split := snapshot.fresh_append [inc] incs
    rw [List.singleton_append] at split
    rw [List.foldl_cons, ih, book_replayOne, split]
    exact (List.foldl_append).symm

theorem book_applySnapshot (manager : OrderBookRecoveryManager) (snapshot : BookSnapshot) :
    (manager.applySnapshot snapshot).2.book =
      (RecoveredBook.ofSnapshot snapshot).applyAll
        (snapshot.fresh manager.bufferedIncrementals) :=
  book_replayed manager snapshot manager.bufferedIncrementals

end OrderBookRecoveryManager

end HftFixEngine.Protocol
