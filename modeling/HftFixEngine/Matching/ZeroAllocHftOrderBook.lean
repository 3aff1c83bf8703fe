import HftFixEngine.Matching.MatchingEngine
import HftFixEngine.Shared.BinarySearch
import HftFixEngine.Shared.Slots

set_option autoImplicit false

namespace HftFixEngine.Matching

open Protocol Word

abbrev maxClOrdIdLen : Nat := 32
abbrev maxBookLevels : Nat := 64
abbrev maxOrdersPerLevel : Nat := 32
abbrev symbolLen : Nat := 16

variable {τ : Type}

def copySvToChar (dest view : Bytes) (maxLen : Nat) : Bytes :=
  let len := min view.length maxLen
  view.take len ++ 0 :: dest.drop (len + 1)

def strnlen (src : Bytes) (maxLen : Nat) : Nat :=
  ((src.take maxLen).takeWhile (· ≠ 0)).length

def copyCharToChar (dest src : Bytes) (maxLen : Nat) : Bytes :=
  let len := strnlen src maxLen
  src.take len ++ 0 :: dest.drop (len + 1)

def cString (chars : Bytes) : Bytes := chars.takeWhile (· ≠ 0)

structure ZeroAllocTrade where
  tradeId : Nat := 0
  symbol : Bytes := List.replicate symbolLen 0
  buyClOrdId : Bytes := List.replicate maxClOrdIdLen 0
  sellClOrdId : Bytes := List.replicate maxClOrdIdLen 0
  matchPrice : Int := 0
  matchQty : Nat := 0
  timestampNs : Nat := 0
  deriving DecidableEq, Repr

structure BookOrder (τ : Type) where
  orderId : Nat := 0
  clOrdId : Bytes := List.replicate maxClOrdIdLen 0
  side : Int := 1
  price : Int := 0
  remainingQty : Nat := 0
  timestampNs : Nat := 0
  active : Bool := false
  tag : τ
  deriving DecidableEq, Repr

structure PriceLevel (τ : Type) where
  price : Int := 0
  orders : Nat → BookOrder τ
  headOrderIdx : Nat := 0
  orderCount : Nat := 0
  cachedTotalQty : Nat := 0

namespace PriceLevel

def reset (level : PriceLevel τ) : PriceLevel τ :=
  { level with price := 0, headOrderIdx := 0, orderCount := 0, cachedTotalQty := 0 }

def frontOrder (level : PriceLevel τ) : BookOrder τ := level.orders level.headOrderIdx

def popFrontOrder (level : PriceLevel τ) : PriceLevel τ :=
  if 0 < level.orderCount then
    { level with
      headOrderIdx :=
        if level.orderCount - 1 = 0 then 0 else (level.headOrderIdx + 1) % maxOrdersPerLevel
      orderCount := level.orderCount - 1 }
  else level

def pushBackOrder (level : PriceLevel τ) (id : Nat) (clOrdId : Bytes) (side price : Int)
    (qty timestampNs : Nat) (tag : τ) : PriceLevel τ :=
  if level.orderCount < maxOrdersPerLevel then
    let idx := (level.headOrderIdx + level.orderCount) % maxOrdersPerLevel
    let node : BookOrder τ :=
      { orderId := id
        clOrdId := copySvToChar (level.orders idx).clOrdId clOrdId (maxClOrdIdLen - 1)
        side, price, remainingQty := qty, timestampNs, active := true, tag }
    { level with
      orders := Function.update level.orders idx node
      cachedTotalQty := u32 (level.cachedTotalQty + qty)
      orderCount := level.orderCount + 1 }
  else level

def totalQty (level : PriceLevel τ) : Nat := level.cachedTotalQty

def queue (level : PriceLevel τ) : List (BookOrder τ) :=
  Slots.ring level.orders maxOrdersPerLevel level.headOrderIdx level.orderCount

end PriceLevel

-- A level pointer is the index of its entry in the pool, which has the entries 0 to 63; no level has
-- this address.
abbrev nullptr : Nat := maxBookLevels

structure LevelStore (τ : Type) where
  pool : Nat → PriceLevel τ
  freeList : Nat → Nat
  freeCount : Nat
  levels : Nat → Nat
  levelCount : Nat

namespace LevelStore

def acquireLevel (store : LevelStore τ) : Nat × LevelStore τ :=
  if store.freeCount = 0 then (nullptr, store)
  else
    let level := store.freeList (store.freeCount - 1)
    (level, { store with
      freeCount := store.freeCount - 1
      pool := Function.update store.pool level (store.pool level).reset })

def releaseLevel (store : LevelStore τ) (level : Nat) : LevelStore τ :=
  if store.freeCount < maxBookLevels ∧ level ≠ nullptr then
    { store with
      freeList := Function.update store.freeList store.freeCount level
      freeCount := store.freeCount + 1 }
  else store

def levelAt (store : LevelStore τ) (index : Nat) : PriceLevel τ := store.pool (store.levels index)

def modifyLevel (store : LevelStore τ) (level : Nat) (f : PriceLevel τ → PriceLevel τ) :
    LevelStore τ :=
  { store with pool := Function.update store.pool level (f (store.pool level)) }

def shiftLevelsLeft (store : LevelStore τ) : LevelStore τ :=
  { store with
    levels := Slots.shiftLeft store.levels (store.levelCount - 1)
    levelCount := store.levelCount - 1 }

-- `order.price` against the price of level `index`: equal, better, or worse.
def probe (store : LevelStore τ) (d : Direction) (price : Int) (index : Nat) : Ordering :=
  if (store.levelAt index).price = price then .eq
  else if d.better price (store.levelAt index).price then .lt else .gt

def addToBook (store : LevelStore τ) (d : Direction) (order : ParsedOrder) (qty timestampNs : Nat)
    (tag : τ) : LevelStore τ :=
  let push (level : PriceLevel τ) : PriceLevel τ :=
    level.pushBackOrder order.seqNum order.clOrdId order.side order.price qty timestampNs tag
  let result := BinarySearch.search (store.probe d order.price) store.levelCount
  match result.found with
  | some mid => store.modifyLevel (store.levels mid) push
  | none =>
    let insertPos := result.low
    if store.levelCount < maxBookLevels then
      let (newLevel, store) := store.acquireLevel
      if newLevel = nullptr then store
      else
        let shifted := Slots.shiftRight store.levels insertPos (store.levelCount - insertPos)
        let store := { store with
          levels := Function.update shifted insertPos newLevel
          levelCount := store.levelCount + 1 }
        store.modifyLevel newLevel fun level => push { level with price := order.price }
    else store

end LevelStore

structure ZeroAllocHftOrderBook (τ : Type) where
  symbol : Bytes
  bid : LevelStore τ
  ask : LevelStore τ
  totalTrades : Nat
  totalVolume : Nat

-- The locals and totals threaded through the matching loops. The caller's buffer is absent
-- when `out_trades` is null.
structure Execution (τ : Type) where
  remainingQty : Nat
  tradesGenerated : Nat
  outTrades : Option (Nat → ZeroAllocTrade)
  tradeCounter : Nat
  totalTrades : Nat
  totalVolume : Nat
  fills : List (BookOrder τ × Nat)

structure Aggressor (τ : Type) where
  direction : Direction
  order : ParsedOrder
  tag : τ
  symbol : Bytes
  maxTrades : Nat
  timestampNs : Nat

namespace Aggressor

def writeTrade (aggressor : Aggressor τ) (trade : ZeroAllocTrade) (tradeId : Nat)
    (passive : BookOrder τ) (matchQty : Nat) : ZeroAllocTrade :=
  let own (dest : Bytes) := copySvToChar dest aggressor.order.clOrdId (maxClOrdIdLen - 1)
  let other (dest : Bytes) := copyCharToChar dest passive.clOrdId (maxClOrdIdLen - 1)
  { tradeId
    symbol := copyCharToChar trade.symbol aggressor.symbol (symbolLen - 1)
    buyClOrdId :=
      match aggressor.direction with
      | .buy => own trade.buyClOrdId
      | .sell => other trade.buyClOrdId
    sellClOrdId :=
      match aggressor.direction with
      | .buy => other trade.sellClOrdId
      | .sell => own trade.sellClOrdId
    matchPrice := passive.price
    matchQty
    timestampNs := aggressor.timestampNs }

def report (aggressor : Aggressor τ) (exec : Execution τ) (passive : BookOrder τ)
    (matchQty : Nat) : Execution τ :=
  match exec.outTrades with
  | none => exec
  | some buffer =>
    if exec.tradesGenerated < aggressor.maxTrades then
      let tradeId := u64 (exec.tradeCounter + 1)
      let trade := aggressor.writeTrade (buffer exec.tradesGenerated) tradeId passive matchQty
      { exec with
        outTrades := some (Function.update buffer exec.tradesGenerated trade)
        tradesGenerated := exec.tradesGenerated + 1
        tradeCounter := tradeId }
    else exec

def record (aggressor : Aggressor τ) (exec : Execution τ) (fill : BookOrder τ × Nat) :
    Execution τ :=
  let exec := aggressor.report exec fill.1 fill.2
  { exec with
    totalTrades := u64 (exec.totalTrades + 1)
    totalVolume := u64 (exec.totalVolume + fill.2)
    remainingQty := exec.remainingQty - fill.2
    fills := exec.fills ++ [fill] }

def levelGoesOn (state : PriceLevel τ × Execution τ) : Bool :=
  decide (0 < state.1.orderCount) && decide (0 < state.2.remainingQty)

def matchFront (aggressor : Aggressor τ) (state : PriceLevel τ × Execution τ) :
    PriceLevel τ × Execution τ :=
  let (level, exec) := state
  let passive := level.frontOrder
  let matchQty := min exec.remainingQty passive.remainingQty
  let left := { passive with remainingQty := passive.remainingQty - matchQty }
  let level := { level with
    orders := Function.update level.orders level.headOrderIdx left
    cachedTotalQty := u32 (level.cachedTotalQty + (2 ^ 32 - matchQty)) }
  (if left.remainingQty = 0 then level.popFrontOrder else level,
    aggressor.record exec (passive, matchQty))

def matchLevel (aggressor : Aggressor τ) (level : PriceLevel τ) (exec : Execution τ) :
    PriceLevel τ × Execution τ :=
  Loop.run levelGoesOn aggressor.matchFront level.orderCount (level, exec)

def sideGoesOn (aggressor : Aggressor τ) (state : LevelStore τ × Execution τ) : Bool :=
  decide (0 < state.1.levelCount) && decide (0 < state.2.remainingQty) &&
    !aggressor.direction.priceLimitReached aggressor.order.price (state.1.levelAt 0).price

def matchBestLevel (aggressor : Aggressor τ) (state : LevelStore τ × Execution τ) :
    LevelStore τ × Execution τ :=
  let (store, exec) := state
  let best := store.levels 0
  let (level, exec) := aggressor.matchLevel (store.pool best) exec
  let store := store.modifyLevel best fun _ => level
  (if level.orderCount = 0 then (store.releaseLevel best).shiftLevelsLeft else store, exec)

def matchSide (aggressor : Aggressor τ) (store : LevelStore τ) (exec : Execution τ) :
    LevelStore τ × Execution τ :=
  Loop.run aggressor.sideGoesOn aggressor.matchBestLevel store.levelCount (store, exec)

end Aggressor

namespace ZeroAllocHftOrderBook

def freshStore [Inhabited τ] : LevelStore τ where
  pool := fun _ => { orders := fun _ => { tag := default } }
  freeList := fun i => i
  freeCount := maxBookLevels
  levels := fun _ => nullptr
  levelCount := 0

def create [Inhabited τ] (symbol : Bytes) : ZeroAllocHftOrderBook τ where
  symbol := copySvToChar (List.replicate symbolLen 0) symbol (symbolLen - 1)
  bid := freshStore
  ask := freshStore
  totalTrades := 0
  totalVolume := 0

def own (book : ZeroAllocHftOrderBook τ) : Direction → LevelStore τ
  | .buy => book.bid
  | .sell => book.ask

def opposite (book : ZeroAllocHftOrderBook τ) : Direction → LevelStore τ
  | .buy => book.ask
  | .sell => book.bid

def setSides (book : ZeroAllocHftOrderBook τ) (own opposite : LevelStore τ) :
    Direction → ZeroAllocHftOrderBook τ
  | .buy => { book with bid := own, ask := opposite }
  | .sell => { book with bid := opposite, ask := own }

def acquireBidLevel (book : ZeroAllocHftOrderBook τ) : Nat × ZeroAllocHftOrderBook τ :=
  (book.bid.acquireLevel.1, { book with bid := book.bid.acquireLevel.2 })

def releaseBidLevel (book : ZeroAllocHftOrderBook τ) (level : Nat) : ZeroAllocHftOrderBook τ :=
  { book with bid := book.bid.releaseLevel level }

def acquireAskLevel (book : ZeroAllocHftOrderBook τ) : Nat × ZeroAllocHftOrderBook τ :=
  (book.ask.acquireLevel.1, { book with ask := book.ask.acquireLevel.2 })

def releaseAskLevel (book : ZeroAllocHftOrderBook τ) (level : Nat) : ZeroAllocHftOrderBook τ :=
  { book with ask := book.ask.releaseLevel level }

structure Submitted (τ : Type) where
  tradesGenerated : Nat
  book : ZeroAllocHftOrderBook τ
  outTrades : Option (Nat → ZeroAllocTrade)
  tradeCounter : Nat
  fills : List (BookOrder τ × Nat)

def submitOrder (book : ZeroAllocHftOrderBook τ) (order : ParsedOrder) (tag : τ)
    (outTrades : Option (Nat → ZeroAllocTrade)) (maxTrades tradeCounter timestampNs : Nat) :
    Submitted τ :=
  match Direction.ofSide order.side with
  | none => { tradesGenerated := 0, book, outTrades, tradeCounter, fills := [] }
  | some d =>
    let aggressor : Aggressor τ :=
      { direction := d, order, tag, symbol := book.symbol, maxTrades, timestampNs }
    let (swept, exec) := aggressor.matchSide (book.opposite d)
      { remainingQty := toUint32 order.quantity, tradesGenerated := 0, outTrades, tradeCounter
        totalTrades := book.totalTrades, totalVolume := book.totalVolume, fills := [] }
    let own :=
      if 0 < exec.remainingQty ∧ (book.own d).levelCount < maxBookLevels then
        (book.own d).addToBook d order exec.remainingQty timestampNs tag
      else book.own d
    { tradesGenerated := exec.tradesGenerated
      book :=
        { book.setSides own swept d with
          totalTrades := exec.totalTrades, totalVolume := exec.totalVolume }
      outTrades := exec.outTrades
      tradeCounter := exec.tradeCounter
      fills := exec.fills }

def bestPrice (store : LevelStore τ) : Int :=
  if 0 < store.levelCount then (store.levelAt 0).price else 0

def bestBidPrice (book : ZeroAllocHftOrderBook τ) : Int := bestPrice book.bid

def bestAskPrice (book : ZeroAllocHftOrderBook τ) : Int := bestPrice book.ask

def bestQty (store : LevelStore τ) : Nat :=
  if 0 < store.levelCount then (store.levelAt 0).totalQty else 0

def bestBidQty (book : ZeroAllocHftOrderBook τ) : Nat := bestQty book.bid

def bestAskQty (book : ZeroAllocHftOrderBook τ) : Nat := bestQty book.ask

def bidLevelsCount (book : ZeroAllocHftOrderBook τ) : Nat := book.bid.levelCount

def askLevelsCount (book : ZeroAllocHftOrderBook τ) : Nat := book.ask.levelCount

def getLevelPrice (store : LevelStore τ) (index : Nat) : Int :=
  if index < store.levelCount then (store.levelAt index).price else 0

def getLevelQty (store : LevelStore τ) (index : Nat) : Nat :=
  if index < store.levelCount then (store.levelAt index).totalQty else 0

def getLevelOrderCount (store : LevelStore τ) (index : Nat) : Nat :=
  if index < store.levelCount then u32 (store.levelAt index).orderCount else 0

def getBidLevelPrice (book : ZeroAllocHftOrderBook τ) : Nat → Int := getLevelPrice book.bid

def getBidLevelQty (book : ZeroAllocHftOrderBook τ) : Nat → Nat := getLevelQty book.bid

def getBidLevelOrderCount (book : ZeroAllocHftOrderBook τ) : Nat → Nat :=
  getLevelOrderCount book.bid

def getAskLevelPrice (book : ZeroAllocHftOrderBook τ) : Nat → Int := getLevelPrice book.ask

def getAskLevelQty (book : ZeroAllocHftOrderBook τ) : Nat → Nat := getLevelQty book.ask

def getAskLevelOrderCount (book : ZeroAllocHftOrderBook τ) : Nat → Nat :=
  getLevelOrderCount book.ask

end ZeroAllocHftOrderBook

end HftFixEngine.Matching
