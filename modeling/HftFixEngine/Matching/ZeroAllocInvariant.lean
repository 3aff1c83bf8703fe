import HftFixEngine.Matching.ZeroAllocSpec

set_option autoImplicit false

namespace HftFixEngine.Matching

open Protocol Word Consume

variable {τ : Type}

def BookCall.sweptFor (call : BookCall τ) (d : Direction) (book : ZeroAllocHftOrderBook τ)
    (rounds : Nat) : LevelStore τ × Execution τ :=
  let aggressor := book.aggressor d call.order call.tag call.maxTrades call.timestampNs
  Loop.run aggressor.sideGoesOn aggressor.matchBestLevel rounds
    (book.opposite d, book.execution call.order call.outTrades call.tradeCounter)

theorem sweptFor_ok {book : ZeroAllocHftOrderBook τ} {d : Direction}
    (ok : StoreOk d.flip (book.opposite d)) (call : BookCall τ) (rounds : Nat) :
    StoreOk d.flip (call.sweptFor d book rounds).1 ∧
      (call.sweptFor d book rounds).2.remainingQty < 2 ^ 32 := by
  refine Loop.run_invariant
    (fun state : LevelStore τ × Execution τ =>
      StoreOk d.flip state.1 ∧ state.2.remainingQty < 2 ^ 32) ?_ rounds
    ⟨ok, toUint32_lt call.order.quantity⟩
  rintro ⟨store, exec⟩ ⟨storeOk, small⟩ going
  let aggressor := book.aggressor d call.order call.tag call.maxTrades call.timestampNs
  have first := firstLevel_of_pos (aggressor.sideGoesOn_iff.mp going).1
  obtain ⟨next, step, nextOk, -, -⟩ := aggressor.matchBestLevel_eq storeOk first small
  have left : ((consume orderSupply (fun _ => false) exec.remainingQty
      (store.pool (store.levels 0)).queue).fills.foldl aggressor.record exec).remainingQty = _ :=
    aggressor.remainingQty_after _ rfl _ _
  have less := consume_unmet_le orderSupply (fun _ => false) exec.remainingQty
    (store.pool (store.levels 0)).queue
  rw [step]
  exact ⟨nextOk, Nat.lt_of_le_of_lt (left ▸ less) small⟩

theorem StoreOk.acquireLevel_ne_nullptr {d : Direction} {store : LevelStore τ}
    (ok : StoreOk d store) (room : store.levelCount < maxBookLevels) :
    store.acquireLevel.1 ≠ nullptr := by
  obtain ⟨ptr, free, acquire, notNull, -⟩ := ok.acquire_spec room
  rw [acquire]
  exact notNull

theorem LevelOk.ring_entry {d : Direction} {level : PriceLevel τ} (ok : LevelOk d level) {k : Nat}
    (within : k < level.orderCount) :
    let order := level.orders ((level.headOrderIdx + k) % maxOrdersPerLevel)
    0 < order.remainingQty ∧ order.price = level.price ∧ order.side = d.code :=
  ok.resting _ (List.mem_map.mpr ⟨k, List.mem_range.mpr within, rfl⟩)

theorem LevelStore.best_mem_orders {d : Direction} {store : LevelStore τ} (ok : StoreOk d store)
    (some : 0 < store.levelCount) :
    ∃ order ∈ store.orders, order.price = (store.levelAt 0).price := by
  have first := firstLevel_of_pos some
  have best : store.levelAt 0 ∈ store.activeLevels := by
    simp [StoreOk.levelAt_zero first, LevelStore.levelAt]
  obtain ⟨levelOk, more⟩ := ok.levels _ best
  refine ⟨_, List.mem_flatMap.mpr ⟨_, best, ?_⟩, (levelOk.ring_entry more).2.1⟩
  exact List.mem_map.mpr ⟨0, List.mem_range.mpr more, rfl⟩

theorem BookOk.best_uncrossed {book : ZeroAllocHftOrderBook τ} (ok : BookOk book)
    (bids : 0 < book.bid.levelCount) (asks : 0 < book.ask.levelCount) :
    book.bestBidPrice < book.bestAskPrice := by
  obtain ⟨bid, bidMember, bidPrice⟩ := LevelStore.best_mem_orders (ok.sides .buy) bids
  obtain ⟨ask, askMember, askPrice⟩ := LevelStore.best_mem_orders (ok.sides .sell) asks
  have apart := ok.uncrossed .buy bid bidMember ask askMember
  rw [bidPrice, askPrice] at apart
  simp only [ZeroAllocHftOrderBook.bestBidPrice, ZeroAllocHftOrderBook.bestAskPrice,
    ZeroAllocHftOrderBook.bestPrice, bids, asks, if_true]
  exact of_decide_eq_true apart

-- Each time the sweep of a call empties the best level, the free list takes its pointer.
theorem sweptFor_release {book : ZeroAllocHftOrderBook τ} {d : Direction}
    (ok : StoreOk d.flip (book.opposite d)) (call : BookCall τ) (rounds : Nat)
    (some : 0 < (call.sweptFor d book rounds).1.levelCount) (level : PriceLevel τ) :
    let store := (call.sweptFor d book rounds).1
    ((store.modifyLevel (store.levels 0) fun _ => level).releaseLevel (store.levels 0)).freePtrs =
      store.freePtrs ++ [store.levels 0] :=
  ((sweptFor_ok ok call rounds).1.release_first (firstLevel_of_pos some) level).2.1

theorem submitOrder_run_representation [Inhabited τ] (symbol : Bytes) (calls : List (BookCall τ)) :
    let book := orderBookAfter symbol calls
    (∀ d, (((book.own d).activePtrs ++ (book.own d).freePtrs).Nodup ∧
        (∀ ptr, ptr ∈ (book.own d).activePtrs ++ (book.own d).freePtrs ↔ ptr < maxBookLevels) ∧
        (book.own d).freeCount + (book.own d).levelCount = maxBookLevels)) ∧
    book.bid.activeLevels.Pairwise (fun a b => b.price < a.price) ∧
    book.ask.activeLevels.Pairwise (fun a b => a.price < b.price) ∧
    (∀ d, ∀ level ∈ (book.own d).activeLevels,
      1 ≤ level.orderCount ∧ level.orderCount ≤ maxOrdersPerLevel ∧
      level.headOrderIdx < maxOrdersPerLevel ∧
      (∀ k < level.orderCount,
        let order := level.orders ((level.headOrderIdx + k) % maxOrdersPerLevel)
        0 < order.remainingQty ∧ order.price = level.price ∧ order.side = d.code) ∧
      level.cachedTotalQty = (level.queue.map BookOrder.remainingQty).sum % 2 ^ 32) ∧
    (0 < book.bid.levelCount → 0 < book.ask.levelCount →
      book.bestBidPrice < book.bestAskPrice) ∧
    (book.bid.levelCount < maxBookLevels → book.acquireBidLevel.1 ≠ nullptr) ∧
    (book.ask.levelCount < maxBookLevels → book.acquireAskLevel.1 ≠ nullptr) ∧
    (∀ level ∈ book.bid.activePtrs,
      (book.releaseBidLevel level).bid.freePtrs = book.bid.freePtrs ++ [level]) ∧
    (∀ level ∈ book.ask.activePtrs,
      (book.releaseAskLevel level).ask.freePtrs = book.ask.freePtrs ++ [level]) ∧
    (∀ (call : BookCall τ) (d : Direction) (rounds : Nat),
      let store := (call.sweptFor d book rounds).1
      0 < store.levelCount → ∀ level,
        ((store.modifyLevel (store.levels 0) fun _ => level).releaseLevel
          (store.levels 0)).freePtrs = store.freePtrs ++ [store.levels 0]) := by
  intro book
  have ok : BookOk book := orderBookAfter_ok symbol calls
  refine ⟨?_, ?_, ?_, ?_, ok.best_uncrossed, (ok.sides .buy).acquireLevel_ne_nullptr,
    (ok.sides .sell).acquireLevel_ne_nullptr,
    fun _ active => (ok.sides .buy).releaseLevel_freePtrs active,
    fun _ active => (ok.sides .sell).releaseLevel_freePtrs active, ?_⟩
  next =>
    intro d
    refine ⟨(ok.sides d).nodup, ?_, ?_⟩
    next =>
      intro ptr
      rw [(ok.sides d).pointers.mem_iff, List.mem_range]
    next =>
      rw [Nat.add_comm]
      exact (ok.sides d).counts
  next =>
    refine (ok.sides .buy).sorted.imp ?_
    intro a b better
    simpa [Direction.better] using better
  next =>
    refine (ok.sides .sell).sorted.imp ?_
    intro a b better
    simpa [Direction.better] using better
  next =>
    intro d level member
    obtain ⟨levelOk, some⟩ := (ok.sides d).levels level member
    exact ⟨some, levelOk.count_le, levelOk.head_lt, fun k within => levelOk.ring_entry within,
      levelOk.cached⟩
  next =>
    intro call d rounds store some level
    exact sweptFor_release (ok.oppositeOk d) call rounds some level

end HftFixEngine.Matching
