import HftFixEngine.Matching.LiveOrders
import HftFixEngine.Matching.ZeroAllocInvariant
import Mathlib.Algebra.Order.BigOperators.Group.List
import Mathlib.Algebra.Order.Ring.Nat

set_option autoImplicit false

namespace HftFixEngine.Engine

open Protocol Matching Word

variable {τ : Type}

structure DepthLevel where
  price : Int := 0
  qty : Nat := 0
  orderCount : Nat := 0
  deriving DecidableEq, Repr

structure TopOfBookSnapshot where
  bestBidPrice : Int := 0
  bestBidQty : Nat := 0
  bestAskPrice : Int := 0
  bestAskQty : Nat := 0
  spreadPrice : Int := 0
  bidDepth : Nat → DepthLevel := fun _ => {}
  askDepth : Nat → DepthLevel := fun _ => {}
  bidLevelsCount : Nat := 0
  askLevelsCount : Nat := 0

-- `for (size_t i = 0; i < count; ++i) depth[i] = level(i);`
def fillDepth (level : Nat → DepthLevel) : Nat → Nat → DepthLevel
  | 0 => fun _ => {}
  | count + 1 => Function.update (fillDepth level count) count (level count)

-- Of the engine the function reads nothing but its book.
def getTopOfBookSnapshot (orderBook : ZeroAllocHftOrderBook τ) : TopOfBookSnapshot :=
  let bestBidPrice := orderBook.bestBidPrice
  let bestAskPrice := orderBook.bestAskPrice
  let bidLevelsCount := min orderBook.bidLevelsCount 5
  let askLevelsCount := min orderBook.askLevelsCount 5
  { bestBidPrice
    bestBidQty := orderBook.bestBidQty
    bestAskPrice
    bestAskQty := orderBook.bestAskQty
    spreadPrice :=
      if bestBidPrice > 0 ∧ bestAskPrice > 0 then
        if bestAskPrice ≥ bestBidPrice then bestAskPrice - bestBidPrice else 0
      else 0
    bidLevelsCount
    bidDepth := fillDepth (fun i => ⟨orderBook.getBidLevelPrice i, orderBook.getBidLevelQty i,
      orderBook.getBidLevelOrderCount i⟩) bidLevelsCount
    askLevelsCount
    askDepth := fillDepth (fun i => ⟨orderBook.getAskLevelPrice i, orderBook.getAskLevelQty i,
      orderBook.getAskLevelOrderCount i⟩) askLevelsCount }

theorem fillDepth_of_lt (level : Nat → DepthLevel) {count i : Nat} (within : i < count) :
    fillDepth level count i = level i := by
  induction count with
  | zero => cases within
  | succ count ih =>
      rw [fillDepth]
      by_cases last : i = count
      next => rw [last, Function.update_self]
      next =>
        rw [Function.update_of_ne last]
        exact ih (by omega)

def depthOf (d : Direction) (side : List Live) : List DepthLevel :=
  (Live.prices d side).map fun price =>
    { price
      qty := ((Live.atPrice side price).map Live.qty).sum
      orderCount := (Live.atPrice side price).length }

structure TrueDeck (live : LiveBook) (snapshot : TopOfBookSnapshot) : Prop where
  bidDepth : ∀ i < min 5 (Live.prices .buy live.bids).length,
    (depthOf .buy live.bids)[i]? = some (snapshot.bidDepth i)
  askDepth : ∀ i < min 5 (Live.prices .sell live.asks).length,
    (depthOf .sell live.asks)[i]? = some (snapshot.askDepth i)
  bestBid : live.bids ≠ [] → snapshot.bestBidPrice = (snapshot.bidDepth 0).price ∧
    snapshot.bestBidQty = (snapshot.bidDepth 0).qty
  bestAsk : live.asks ≠ [] → snapshot.bestAskPrice = (snapshot.askDepth 0).price ∧
    snapshot.bestAskQty = (snapshot.askDepth 0).qty
  spread : live.bids ≠ [] → live.asks ≠ [] → 0 < snapshot.bestBidPrice →
    0 < snapshot.bestAskPrice →
    snapshot.spreadPrice = snapshot.bestAskPrice - snapshot.bestBidPrice ∧ 0 < snapshot.spreadPrice

def sideDepth (store : LevelStore τ) : Nat → DepthLevel :=
  fillDepth (fun i => ⟨ZeroAllocHftOrderBook.getLevelPrice store i,
    ZeroAllocHftOrderBook.getLevelQty store i, ZeroAllocHftOrderBook.getLevelOrderCount store i⟩)
    (min store.levelCount 5)

section Side

variable {d : Direction} {store : LevelStore τ} (ok : StoreOk d store) {limit : Nat}
  (small : maxOrdersPerLevel * limit < 2 ^ 32)
  (bounded : ∀ live ∈ store.live, live.qty ≤ limit)

include ok small bounded

-- A full level of the largest orders is below 2^32, so the sum in 32 bits never wraps.
theorem cachedTotalQty_exact {level : PriceLevel τ} (member : level ∈ store.activeLevels) :
    level.cachedTotalQty = (level.queue.map BookOrder.remainingQty).sum := by
  obtain ⟨levelOk, -⟩ := ok.levels level member
  have each : ∀ qty ∈ level.queue.map BookOrder.remainingQty, qty ≤ limit := by
    intro qty listed
    obtain ⟨order, queued, rfl⟩ := List.mem_map.mp listed
    refine bounded order.live (List.mem_map.mpr ⟨order, ?_, rfl⟩)
    exact List.mem_flatMap.mpr ⟨level, member, queued⟩
  have total := List.sum_le_card_nsmul _ _ each
  have count := levelOk.count_le
  rw [List.length_map, PriceLevel.queue_length, nsmul_eq_mul] at total
  rw [levelOk.cached]
  refine Nat.mod_eq_of_lt (Nat.lt_of_le_of_lt total ?_)
  calc level.orderCount * limit ≤ maxOrdersPerLevel * limit := Nat.mul_le_mul_right _ count
    _ < 2 ^ 32 := small

theorem depthOf_getElem {i : Nat} (within : i < store.levelCount) :
    (depthOf d store.live)[i]? =
      some ⟨ZeroAllocHftOrderBook.getLevelPrice store i, ZeroAllocHftOrderBook.getLevelQty store i,
        ZeroAllocHftOrderBook.getLevelOrderCount store i⟩ := by
  have active : store.activeLevels[i]? = some (store.levelAt i) := by
    rw [LevelStore.activeLevels_eq]
    simp [Slots.first, within]
  have member := List.mem_of_getElem? active
  have count : u32 (store.levelAt i).orderCount = (store.levelAt i).orderCount := by
    have most := (ok.levels _ member).1.count_le
    exact Nat.mod_eq_of_lt (Nat.lt_of_le_of_lt most (by decide))
  rw [depthOf, ok.live_prices, List.map_map, List.getElem?_map, active, Option.map_some,
    Function.comp_apply, ok.live_atPrice member]
  simp only [ZeroAllocHftOrderBook.getLevelPrice, ZeroAllocHftOrderBook.getLevelQty,
    ZeroAllocHftOrderBook.getLevelOrderCount, within, if_true, PriceLevel.totalQty, List.map_map,
    List.length_map, PriceLevel.queue_length, cachedTotalQty_exact ok small bounded member, count]
  rfl

theorem sideDepth_true {i : Nat} (within : i < min 5 (Live.prices d store.live).length) :
    (depthOf d store.live)[i]? = some (sideDepth store i) := by
  rw [ok.live_prices_length] at within
  rw [depthOf_getElem ok small bounded (by omega), sideDepth, fillDepth_of_lt _ (by omega)]

omit ok small bounded in
theorem levelCount_pos_of_live (some : store.live ≠ []) : 0 < store.levelCount := by
  by_contra none
  refine some ?_
  have empty : store.levelCount = 0 := by omega
  simp [LevelStore.live, LevelStore.orders, LevelStore.activeLevels, LevelStore.activePtrs, empty]

omit ok small bounded in
theorem sideDepth_best (some : store.live ≠ []) :
    ZeroAllocHftOrderBook.bestPrice store = (sideDepth store 0).price ∧
      ZeroAllocHftOrderBook.bestQty store = (sideDepth store 0).qty := by
  have any := levelCount_pos_of_live some
  rw [sideDepth, fillDepth_of_lt _ (by omega)]
  exact ⟨rfl, rfl⟩

end Side

section Book

variable {book : ZeroAllocHftOrderBook τ} (ok : BookOk book)

include ok

theorem spreadPrice_eq (bids : 0 < book.bid.levelCount) (asks : 0 < book.ask.levelCount)
    (bid : 0 < book.bestBidPrice) (ask : 0 < book.bestAskPrice) :
    (getTopOfBookSnapshot book).spreadPrice = book.bestAskPrice - book.bestBidPrice ∧
      0 < (getTopOfBookSnapshot book).spreadPrice := by
  have apart := ok.best_uncrossed bids asks
  simp only [getTopOfBookSnapshot]
  rw [if_pos ⟨bid, ask⟩, if_pos (Int.le_of_lt apart)]
  exact ⟨rfl, by omega⟩

theorem trueDeck_of_bounded {limit : Nat} (small : maxOrdersPerLevel * limit < 2 ^ 32)
    (bounded : book.live.Bounded limit) : TrueDeck book.live (getTopOfBookSnapshot book) where
  bidDepth _ within := sideDepth_true (ok.sides .buy) small (bounded .buy) within
  askDepth _ within := sideDepth_true (ok.sides .sell) small (bounded .sell) within
  bestBid := sideDepth_best
  bestAsk := sideDepth_best
  spread someBid someAsk bid ask :=
    spreadPrice_eq ok (levelCount_pos_of_live someBid) (levelCount_pos_of_live someAsk) bid ask

end Book

theorem getTopOfBookSnapshot_exact [Inhabited τ] (symbol : Bytes) (calls : List (BookCall τ))
    (gated : ∀ call ∈ calls, 0 ≤ call.order.quantity ∧ call.order.quantity ≤ 50000) :
    TrueDeck (LiveBook.after (calls.map BookCall.order))
      (getTopOfBookSnapshot (orderBookAfter symbol calls)) := by
  have fits : ∀ call ∈ calls, QuantityFits call.order := by
    intro call member
    obtain ⟨least, most⟩ := gated call member
    exact ⟨least, Int.lt_of_le_of_lt most (by decide)⟩
  have live := orderBookAfter_live symbol calls fits
  have bounded : (LiveBook.after (calls.map BookCall.order)).Bounded 50000 := by
    apply LiveBook.after_bounded
    intro order member
    obtain ⟨call, listed, rfl⟩ := List.mem_map.mp member
    exact (gated call listed).2
  rw [← live] at bounded ⊢
  exact trueDeck_of_bounded (orderBookAfter_ok symbol calls) (by decide) bounded

def threeBids : List (BookCall Unit) :=
  [⟨{ side := 1, quantity := 50000, price := 100, seqNum := 1 }, (), none, 0, 0, 0⟩,
    ⟨{ side := 1, quantity := 20000, price := 100, seqNum := 2 }, (), none, 0, 0, 0⟩,
    ⟨{ side := 1, quantity := 7, price := 99, seqNum := 3 }, (), none, 0, 0, 0⟩,
    ⟨{ side := 2, quantity := 10, price := 100, seqNum := 4 }, (), none, 0, 0, 0⟩,
    ⟨{ side := 2, quantity := 5, price := 103, seqNum := 5 }, (), none, 0, 0, 0⟩]

theorem getTopOfBookSnapshot_exact_threeBids :
    depthOf .buy (LiveBook.after (threeBids.map BookCall.order)).bids =
        [⟨100, 69990, 2⟩, ⟨99, 7, 1⟩] ∧
      TrueDeck (LiveBook.after (threeBids.map BookCall.order))
        (getTopOfBookSnapshot (orderBookAfter [] threeBids)) :=
  ⟨by decide +kernel, getTopOfBookSnapshot_exact [] threeBids (by decide)⟩

end HftFixEngine.Engine
