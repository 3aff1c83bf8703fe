import HftFixEngine.Matching.SymbolIndependence
import HftFixEngine.Matching.TradeReporting
import HftFixEngine.Matching.ZeroAllocRefinement

set_option autoImplicit false

namespace HftFixEngine.Matching

open Protocol Word Consume

variable {τ : Type}

structure TradeReport where
  tradeId : Nat
  symbol : Bytes
  buyClOrdId : Bytes
  sellClOrdId : Bytes
  matchPrice : Int
  matchQty : Nat
  timestampNs : Nat
  deriving DecidableEq, Repr

def TradeExecution.report (trade : TradeExecution τ) : TradeReport :=
  { tradeId := trade.tradeId, symbol := trade.symbol, buyClOrdId := trade.buyClOrdId
    sellClOrdId := trade.sellClOrdId, matchPrice := trade.matchPrice, matchQty := trade.matchQty
    timestampNs := trade.executionTimestampNs }

def ZeroAllocTrade.report (trade : ZeroAllocTrade) : TradeReport :=
  { tradeId := trade.tradeId, symbol := cString trade.symbol
    buyClOrdId := cString trade.buyClOrdId, sellClOrdId := cString trade.sellClOrdId
    matchPrice := trade.matchPrice, matchQty := trade.matchQty, timestampNs := trade.timestampNs }

-- Nothing of the order is lost in the fixed-size parts of the book: its id fits, the report buffer has
-- a slot for each of its fills, and what is left of it finds room.
structure Suits (book : ZeroAllocHftOrderBook τ) (order : ParsedOrder) : Prop where
  short : order.clOrdId.length ≤ 31
  noNul : 0 ∉ order.clOrdId
  reported : book.fits order
  roomy : ∀ d, Direction.ofSide order.side = some d →
    (book.own d).noRoom order.price = true → (book.outcome d order).unmet = 0

instance (p : Direction → Prop) [DecidablePred p] : Decidable (∀ d, p d) :=
  decidable_of_iff (p .buy ∧ p .sell)
    ⟨fun both d => by cases d <;> simp only [both], fun all => ⟨all .buy, all .sell⟩⟩

instance (book : ZeroAllocHftOrderBook τ) (order : ParsedOrder) : Decidable (book.fits order) :=
  inferInstanceAs (Decidable (∀ _, _ → _ ∨ _))

instance (book : ZeroAllocHftOrderBook τ) (order : ParsedOrder) : Decidable (Suits book order) :=
  decidable_of_iff
    (order.clOrdId.length ≤ 31 ∧ 0 ∉ order.clOrdId ∧ book.fits order ∧
      ∀ d, Direction.ofSide order.side = some d →
        (book.own d).noRoom order.price = true → (book.outcome d order).unmet = 0)
    ⟨fun ⟨short, noNul, reported, roomy⟩ => ⟨short, noNul, reported, roomy⟩,
      fun ⟨short, noNul, reported, roomy⟩ => ⟨short, noNul, reported, roomy⟩⟩

namespace ZeroAllocHftOrderBook

theorem submitOrder_symbol (book : ZeroAllocHftOrderBook τ) (order : ParsedOrder) (tag : τ)
    (outTrades : Option (Nat → ZeroAllocTrade)) (maxTrades tradeCounter timestampNs : Nat) :
    (book.submitOrder order tag outTrades maxTrades tradeCounter timestampNs).book.symbol =
      book.symbol := by
  unfold submitOrder
  split
  next => rfl
  next d _ => cases d <;> rfl

theorem absWithinRoom_of_suits {book : ZeroAllocHftOrderBook τ} {order : ParsedOrder} (tag : τ)
    (tradeCounter timestampNs : Nat) (suits : Suits book order) :
    let flat := (book.abs.submitOrder order tag [] tradeCounter timestampNs).book
    book.absWithinRoom order flat = flat := by
  intro flat
  unfold absWithinRoom
  cases side : Direction.ofSide order.side with
  | none => rfl
  | some d =>
    simp only
    split
    next full =>
      have met : (book.abs.outcome d order).unmet = 0 := by
        rw [abs_outcome]
        exact suits.roomy d side full
      have own : flat.own d = book.abs.own d := by
        rw [MatchingBook.submitOrder_own tag [] tradeCounter timestampNs side, met]
        rfl
      rw [← own]
      cases d <;> rfl
    next => rfl

end ZeroAllocHftOrderBook

section Call

variable {book : ZeroAllocHftOrderBook τ} {order : ParsedOrder} (d : Direction) (tag : τ)
    (maxTrades timestampNs : Nat)

theorem report_writeTrade (side : Direction.ofSide order.side = some d)
    (named : (cString book.symbol).length < symbolLen) (suits : Suits book order)
    {passive : BookOrder τ} (resting : (cString passive.clOrdId).length < maxClOrdIdLen)
    (old : ZeroAllocTrade) (id qty : Nat) :
    ((book.aggressor d order tag maxTrades timestampNs).writeTrade old id passive qty).report =
      ((book.abs.incoming d order tag timestampNs).trade id passive.abs qty).report := by
  have own := fun dest => cString_copySvToChar_eq dest suits.short suits.noNul
  have other := fun dest => cString_copyCharToChar dest (Nat.le_pred_of_lt resting)
  have symbol := cString_copyCharToChar old.symbol (Nat.le_pred_of_lt named)
  cases d <;>
    simp only [ZeroAllocTrade.report, TradeExecution.report, Aggressor.writeTrade,
      ZeroAllocHftOrderBook.aggressor, MatchingBook.incoming, Incoming.trade, BookOrder.abs,
      ZeroAllocHftOrderBook.abs, TradeReport.mk.injEq, true_and, and_true]
  next => exact ⟨symbol, own _, other _⟩
  next => exact ⟨symbol, other _, own _⟩

theorem Aggressor.Reported.reports {aggressor : Aggressor τ} {start exec : Execution τ}
    {buffer next : Nat → ZeroAllocTrade} {fills : List (BookOrder τ × Nat)}
    (reported : aggressor.Reported start buffer fills exec next)
    (all : exec.tradesGenerated = fills.length) (incoming : Incoming τ)
    (same : ∀ fill, fill ∈ fills → ∀ old id,
      (aggressor.writeTrade old id fill.1 fill.2).report =
        (incoming.trade id fill.1.abs fill.2).report) :
    (Slots.first next exec.tradesGenerated).map ZeroAllocTrade.report =
      (incoming.tradesFrom start.tradeCounter (fills.map (Prod.map BookOrder.abs id))).map
        TradeExecution.report := by
  apply List.ext_getElem
  next => simp [all, Incoming.length_tradesFrom]
  next =>
    intro i within _
    have less : i < exec.tradesGenerated := by simpa using within
    obtain ⟨fill, found, written⟩ := reported.written i less
    obtain ⟨bound, value⟩ := List.getElem?_eq_some_iff.mp found
    have member : fill ∈ fills := value ▸ List.getElem_mem bound
    simp only [List.getElem_map, Slots.first_getElem, written, Incoming.tradesFrom,
      List.getElem_zipIdx, value, Prod.map, id, Nat.zero_add]
    exact same fill member _ _

end Call

namespace Session

variable {session : Session τ} (ok : SessionOk session) {arrival : Arrival τ}
    (suits : Suits session.book arrival.order)

include ok suits

theorem tradesGenerated_of_suits {d : Direction}
    (side : Direction.ofSide arrival.order.side = some d) :
    (session.submit arrival).tradesGenerated =
      (session.book.outcome d arrival.order).fills.length := by
  have booked := booked_of_side ok arrival side
  rw [booked.count, Nat.min_eq_right (booked.fits.mp suits.reported)]

variable (arrival) in
theorem next_reports (named : (cString session.book.symbol).length < symbolLen) :
    (Slots.first (session.next arrival).tradeBatch (session.submit arrival).tradesGenerated).map
        ZeroAllocTrade.report =
      (session.book.abs.submitOrder arrival.order arrival.tag [] session.tradeCounter
        arrival.timestampNs).trades.map TradeExecution.report := by
  cases side : Direction.ofSide arrival.order.side with
  | none =>
    have ignored : session.submit arrival = _ := session.book.submitOrder_of_other arrival.order
      arrival.tag (some session.tradeBatch) tradeBatchSize session.tradeCounter arrival.timestampNs
      side
    rw [ignored, MatchingBook.submitOrder_ignored _ arrival.order arrival.tag [] _ _ side]
    simp
  | some d =>
    obtain ⟨swept, effect⟩ := session.book.submitOrder_effect arrival.order arrival.tag
      (some session.tradeBatch) tradeBatchSize session.tradeCounter arrival.timestampNs side
      (ok.bookOk.oppositeOk d)
    let fills := (session.book.outcome d arrival.order).fills
    let aggressor :=
      session.book.aggressor d arrival.order arrival.tag tradeBatchSize arrival.timestampNs
    let start :=
      session.book.execution arrival.order (some session.tradeBatch) session.tradeCounter
    obtain ⟨next, reported⟩ := aggressor.foldl_record_reported start rfl rfl fills
    have result : session.submit arrival = _ := effect.result
    have batch : (session.next arrival).tradeBatch = next := by
      simp only [Session.next, result]
      rw [reported.out]
      rfl
    have count : (session.submit arrival).tradesGenerated =
        (fills.foldl aggressor.record start).tradesGenerated := by
      rw [result]
    have all : (fills.foldl aggressor.record start).tradesGenerated = fills.length := by
      rw [← count]
      exact tradesGenerated_of_suits ok suits side
    rw [batch, count, MatchingBook.submitOrder_trades, List.nil_append,
      MatchingBook.appended_of_side _ _ _ _ _ side, abs_outcome]
    refine reported.reports all (session.book.abs.incoming d arrival.order arrival.tag
      arrival.timestampNs) ?_
    intro fill member old id
    have inside := (mem_of_mem_fills _ _ fill member).1
    rw [session.book.opposite_eq_own_flip] at inside
    exact report_writeTrade d arrival.tag tradeBatchSize arrival.timestampNs side named suits
      (ok.bookOk.ids d.flip fill.1 inside) old id fill.2

variable (arrival) in
theorem next_abs :
    (session.next arrival).book.abs =
      (session.book.abs.submitOrder arrival.order arrival.tag [] session.tradeCounter
        arrival.timestampNs).book :=
  (submitOrder_abs ok.bookOk (Nat.lt_succ_of_le suits.short) suits.noNul arrival.tag
    (some session.tradeBatch) tradeBatchSize session.tradeCounter arrival.timestampNs).trans
    (ZeroAllocHftOrderBook.absWithinRoom_of_suits arrival.tag session.tradeCounter
      arrival.timestampNs suits)

variable (arrival) in
theorem next_tradeCounter :
    (session.next arrival).tradeCounter =
      (session.book.abs.submitOrder arrival.order arrival.tag [] session.tradeCounter
        arrival.timestampNs).tradeCounter := by
  rw [MatchingBook.submitOrder_tradeCounter _ _ _ _ _ _ ok.counter_lt]
  cases side : Direction.ofSide arrival.order.side with
  | none =>
    have booked := booked_of_other ok arrival side
    rw [MatchingBook.fills, side]
    exact booked.counter
  | some d =>
    have booked := booked_of_side ok arrival side
    have counter := booked.counter
    rw [Nat.min_eq_right (booked.fits.mp suits.reported)] at counter
    rw [MatchingBook.fills_of_side _ _ side, abs_outcome, Outcome.map, List.length_map]
    exact counter

end Session

end HftFixEngine.Matching
