import HftFixEngine.Protocol.ParsedOrder
import HftFixEngine.Shared.Consume
import HftFixEngine.Shared.Loop
import HftFixEngine.Shared.SortedInsert

set_option autoImplicit false

namespace HftFixEngine.Matching

open Protocol Word Consume SortedInsert

inductive Direction where
  | buy
  | sell
  deriving DecidableEq, Repr

namespace Direction

-- Orders of any other side are ignored by both books.
def ofSide (side : Int) : Option Direction :=
  if side = 1 then some .buy else if side = 2 then some .sell else none

def code : Direction → Int
  | .buy => 1
  | .sell => 2

def better : Direction → Int → Int → Bool
  | .buy, price, other => price > other
  | .sell, price, other => price < other

def priceLimitReached : Direction → Int → Int → Bool
  | .buy, price, best => price < best
  | .sell, price, best => price > best

def flip : Direction → Direction
  | .buy => .sell
  | .sell => .buy

theorem priceLimitReached_flip (d : Direction) (a b : Int) :
    d.flip.priceLimitReached b a = d.priceLimitReached a b := by
  cases d <;> simp [flip, priceLimitReached]

theorem code_flip (d : Direction) :
    d.flip.code = 1 ∧ d.code = 2 ∨ d.flip.code = 2 ∧ d.code = 1 := by
  cases d <;> simp [flip, code]

theorem eq_or_eq_flip (d e : Direction) : e = d ∨ e = d.flip := by
  cases d <;> cases e <;> simp [flip]

theorem better_trans {d : Direction} {a b c : Int} (first : d.better a b = true)
    (second : d.better b c = true) : d.better a c = true := by
  cases d <;> simp only [better, decide_eq_true_eq] at * <;> omega

theorem better_irrefl (d : Direction) (a : Int) : d.better a a = false := by
  cases d <;> simp [better]

theorem better_asymm {d : Direction} {a b : Int} (first : d.better a b = true) :
    d.better b a = false := by
  cases d <;> simp only [better, decide_eq_true_eq, decide_eq_false_iff_not] at * <;> omega

theorem better_or_eq_or_better (d : Direction) (a b : Int) :
    d.better a b = true ∨ a = b ∨ d.better b a = true := by
  cases d <;> simp only [better, decide_eq_true_eq] <;> omega

theorem beyond_of_sorted {α : Type} {d : Direction} {limit : Int} (price : α → Int) (xs : List α)
    (sorted : xs.Pairwise fun a b => d.flip.better (price b) (price a) = false)
    (first : ∀ x ∈ xs.head?, d.priceLimitReached limit (price x) = true) :
    ∀ x ∈ xs, d.priceLimitReached limit (price x) = true := by
  cases xs with
  | nil => simp
  | cons best others =>
      have front := first best (by simp)
      intro x member
      rcases List.mem_cons.mp member with rfl | later
      next => exact front
      next =>
        have worse := (List.pairwise_cons.mp sorted).1 x later
        revert front worse
        cases d <;>
          simp only [flip, better, priceLimitReached, decide_eq_true_eq, decide_eq_false_iff_not] <;>
          omega

theorem ofSide_eq_some {side : Int} {d : Direction} : ofSide side = some d ↔ side = d.code := by
  cases d <;> (simp only [ofSide, code]; split_ifs <;> simp_all)

end Direction

variable {τ : Type}

structure TradeExecution (τ : Type) where
  tradeId : Nat
  symbol : Bytes
  buyClOrdId : Bytes
  sellClOrdId : Bytes
  matchPrice : Int
  matchQty : Nat
  executionTimestampNs : Nat
  buyTag : τ
  sellTag : τ
  deriving DecidableEq, Repr

structure LimitOrderEntry (τ : Type) where
  clOrdId : Bytes
  side : Int
  price : Int
  remainingQty : Nat
  seqNum : Nat
  tag : τ
  deriving DecidableEq, Repr

@[ext]
structure MatchingBook (τ : Type) where
  symbol : Bytes
  bids : List (LimitOrderEntry τ) := []
  asks : List (LimitOrderEntry τ) := []
  totalTrades : Nat := 0
  totalVolume : Nat := 0
  deriving DecidableEq, Repr

namespace MatchingBook

def opposite (book : MatchingBook τ) : Direction → List (LimitOrderEntry τ)
  | .buy => book.asks
  | .sell => book.bids

def own (book : MatchingBook τ) : Direction → List (LimitOrderEntry τ)
  | .buy => book.bids
  | .sell => book.asks

def setSides (book : MatchingBook τ) (own opposite : List (LimitOrderEntry τ)) :
    Direction → MatchingBook τ
  | .buy => { book with bids := own, asks := opposite }
  | .sell => { book with bids := opposite, asks := own }

end MatchingBook

structure Ledger (τ : Type) where
  trades : List (TradeExecution τ)
  tradeCounter : Nat
  totalTrades : Nat
  totalVolume : Nat
  matched : Bool
  deriving DecidableEq, Repr

structure MatchState (τ : Type) where
  passive : List (LimitOrderEntry τ)
  remainingQty : Nat
  ledger : Ledger τ
  deriving DecidableEq, Repr

-- What `submit_order` reads and does not change. The `tag` is ghost: it goes to the entry that rests
-- and to the trades, and says which order they come from.
structure Incoming (τ : Type) where
  direction : Direction
  order : ParsedOrder
  tag : τ
  symbol : Bytes
  timestampNs : Nat

namespace Incoming

def trade (incoming : Incoming τ) (tradeId : Nat) (passive : LimitOrderEntry τ) (matchQty : Nat) :
    TradeExecution τ :=
  match incoming.direction with
  | .buy =>
    { tradeId, symbol := incoming.symbol
      buyClOrdId := incoming.order.clOrdId, sellClOrdId := passive.clOrdId
      matchPrice := passive.price, matchQty, executionTimestampNs := incoming.timestampNs
      buyTag := incoming.tag, sellTag := passive.tag }
  | .sell =>
    { tradeId, symbol := incoming.symbol
      buyClOrdId := passive.clOrdId, sellClOrdId := incoming.order.clOrdId
      matchPrice := passive.price, matchQty, executionTimestampNs := incoming.timestampNs
      buyTag := passive.tag, sellTag := incoming.tag }

def record (incoming : Incoming τ) (ledger : Ledger τ) (fill : LimitOrderEntry τ × Nat) :
    Ledger τ :=
  { trades := ledger.trades ++ [incoming.trade (u64 (ledger.tradeCounter + 1)) fill.1 fill.2]
    tradeCounter := u64 (ledger.tradeCounter + 1)
    totalTrades := u64 (ledger.totalTrades + 1)
    totalVolume := u64 (ledger.totalVolume + fill.2)
    matched := true }

def refused (incoming : Incoming τ) (passive : LimitOrderEntry τ) : Bool :=
  incoming.direction.priceLimitReached incoming.order.price passive.price

def goesOn (incoming : Incoming τ) (state : MatchState τ) : Bool :=
  match state.passive with
  | [] => false
  | best :: _ => decide (0 < state.remainingQty) && !incoming.refused best

def matchFront (incoming : Incoming τ) (state : MatchState τ) : MatchState τ :=
  match state.passive with
  | [] => state
  | best :: rest =>
    let matchQty := min state.remainingQty best.remainingQty
    let left := { best with remainingQty := best.remainingQty - matchQty }
    { passive := if left.remainingQty = 0 then rest else left :: rest
      remainingQty := state.remainingQty - matchQty
      ledger := incoming.record state.ledger (best, matchQty) }

-- Each round erases the front entry or exhausts the order, so the length of the passive list
-- bounds the number of rounds.
def sweep (incoming : Incoming τ) (state : MatchState τ) : MatchState τ :=
  Loop.run incoming.goesOn incoming.matchFront state.passive.length state

def entry (incoming : Incoming τ) (remainingQty : Nat) : LimitOrderEntry τ :=
  { clOrdId := incoming.order.clOrdId, side := incoming.order.side, price := incoming.order.price
    remainingQty, seqNum := incoming.order.seqNum, tag := incoming.tag }

end Incoming

structure Submission (τ : Type) where
  matched : Bool
  book : MatchingBook τ
  trades : List (TradeExecution τ)
  tradeCounter : Nat
  deriving DecidableEq, Repr

def LimitOrderEntry.precedes (d : Direction) (a b : LimitOrderEntry τ) : Bool :=
  d.better a.price b.price

def MatchingBook.submitOrder (book : MatchingBook τ) (order : ParsedOrder) (tag : τ)
    (trades : List (TradeExecution τ)) (tradeCounter timestampNs : Nat) : Submission τ :=
  match Direction.ofSide order.side with
  | none => { matched := false, book, trades, tradeCounter }
  | some d =>
    let incoming : Incoming τ := { direction := d, order, tag, symbol := book.symbol, timestampNs }
    let swept := incoming.sweep
      { passive := book.opposite d
        remainingQty := toUint32 order.quantity
        ledger :=
          { trades, tradeCounter, totalTrades := book.totalTrades, totalVolume := book.totalVolume
            matched := false } }
    let own :=
      if 0 < swept.remainingQty then
        insertUpper (LimitOrderEntry.precedes d) (incoming.entry swept.remainingQty) (book.own d)
      else book.own d
    { matched := swept.ledger.matched
      book :=
        { book.setSides own swept.passive d with
          totalTrades := swept.ledger.totalTrades, totalVolume := swept.ledger.totalVolume }
      trades := swept.ledger.trades
      tradeCounter := swept.ledger.tradeCounter }

structure MatchingEngine (τ : Type) where
  books : List (Bytes × MatchingBook τ) := []
  tradeCounter : Nat := 0
  deriving DecidableEq, Repr

namespace MatchingEngine

def defaultSymbol : Bytes := [80, 69, 84, 82, 52]

def routedSymbol (order : ParsedOrder) : Bytes :=
  if order.symbol.isEmpty then defaultSymbol else order.symbol

def findBook (engine : MatchingEngine τ) (symbol : Bytes) : MatchingBook τ :=
  (engine.books.lookup symbol).getD { symbol }

def storeBook (symbol : Bytes) (book : MatchingBook τ) :
    List (Bytes × MatchingBook τ) → List (Bytes × MatchingBook τ)
  | [] => [(symbol, book)]
  | (key, old) :: rest =>
    if key = symbol then (key, book) :: rest else (key, old) :: storeBook symbol book rest

def processOrder (engine : MatchingEngine τ) (order : ParsedOrder) (tag : τ)
    (trades : List (TradeExecution τ)) (timestampNs : Nat) :
    Bool × MatchingEngine τ × List (TradeExecution τ) :=
  let symbol := routedSymbol order
  let done := (engine.findBook symbol).submitOrder order tag trades engine.tradeCounter timestampNs
  (done.matched,
    { books := storeBook symbol done.book engine.books, tradeCounter := done.tradeCounter },
    done.trades)

def totalTrades (engine : MatchingEngine τ) : Nat :=
  engine.books.foldl (fun count stored => u64 (count + stored.2.totalTrades)) 0

def totalVolume (engine : MatchingEngine τ) : Nat :=
  engine.books.foldl (fun vol stored => u64 (vol + stored.2.totalVolume)) 0

end MatchingEngine

end HftFixEngine.Matching
