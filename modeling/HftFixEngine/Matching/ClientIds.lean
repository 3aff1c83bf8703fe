import HftFixEngine.Matching.MatchingSpec

set_option autoImplicit false

namespace HftFixEngine

open Word Consume SortedInsert

def Protocol.ParsedOrder.anonymous (order : Protocol.ParsedOrder) : Protocol.ParsedOrder :=
  { order with clOrdId := [] }

namespace Matching

open Protocol

variable {τ : Type}

def LimitOrderEntry.anonymous (entry : LimitOrderEntry τ) : LimitOrderEntry τ :=
  { entry with clOrdId := [] }

def TradeExecution.anonymous (trade : TradeExecution τ) : TradeExecution τ :=
  { trade with buyClOrdId := [], sellClOrdId := [] }

def MatchingBook.anonymous (book : MatchingBook τ) : MatchingBook τ :=
  { book with
    bids := book.bids.map LimitOrderEntry.anonymous
    asks := book.asks.map LimitOrderEntry.anonymous }

def Ledger.anonymous (ledger : Ledger τ) : Ledger τ :=
  { ledger with trades := ledger.trades.map TradeExecution.anonymous }

def Incoming.anonymous (incoming : Incoming τ) : Incoming τ :=
  { incoming with order := incoming.order.anonymous }

def Submission.anonymous (submission : Submission τ) : Submission τ :=
  { submission with
    book := submission.book.anonymous
    trades := submission.trades.map TradeExecution.anonymous }

def MatchingEngine.anonymous (engine : MatchingEngine τ) : MatchingEngine τ :=
  { engine with books := engine.books.map fun stored => (stored.1, stored.2.anonymous) }

namespace Incoming

theorem trade_anonymous (incoming : Incoming τ) (id : Nat) (passive : LimitOrderEntry τ) (qty : Nat) :
    (incoming.anonymous.trade id passive.anonymous qty) =
      (incoming.trade id passive qty).anonymous := by
  cases incoming with
  | mk direction => cases direction <;> rfl

theorem record_anonymous (incoming : Incoming τ) (ledger : Ledger τ) (fill : LimitOrderEntry τ × Nat) :
    incoming.anonymous.record ledger.anonymous (fill.1.anonymous, fill.2) =
      (incoming.record ledger fill).anonymous := by
  simp [record, Ledger.anonymous, trade_anonymous]

theorem foldl_record_anonymous (incoming : Incoming τ) (fills : List (LimitOrderEntry τ × Nat))
    (ledger : Ledger τ) :
    (fills.map (Prod.map LimitOrderEntry.anonymous id)).foldl incoming.anonymous.record
        ledger.anonymous =
      (fills.foldl incoming.record ledger).anonymous := by
  induction fills generalizing ledger with
  | nil => rfl
  | cons fill fills ih =>
    have step : incoming.anonymous.record ledger.anonymous
        (Prod.map LimitOrderEntry.anonymous id fill) = (incoming.record ledger fill).anonymous :=
      incoming.record_anonymous ledger fill
    rw [List.map_cons, List.foldl_cons, List.foldl_cons, step, ih]

end Incoming

namespace MatchingBook

theorem own_anonymous (book : MatchingBook τ) (d : Direction) :
    book.anonymous.own d = (book.own d).map LimitOrderEntry.anonymous := by
  cases d <;> rfl

theorem opposite_anonymous (book : MatchingBook τ) (d : Direction) :
    book.anonymous.opposite d = (book.opposite d).map LimitOrderEntry.anonymous := by
  cases d <;> rfl

theorem outcome_anonymous (book : MatchingBook τ) (d : Direction) (order : ParsedOrder) :
    book.anonymous.outcome d order.anonymous =
      (book.outcome d order).map LimitOrderEntry.anonymous := by
  rw [outcome, opposite_anonymous]
  exact consume_map LimitOrderEntry.anonymous (fun _ => rfl) (fun _ _ => rfl) (fun _ => rfl) _ _

theorem restResidual_anonymous (d : Direction) (incoming : Incoming τ) (residual : Nat)
    (own : List (LimitOrderEntry τ)) :
    restResidual d incoming.anonymous residual (own.map LimitOrderEntry.anonymous) =
      (restResidual d incoming residual own).map LimitOrderEntry.anonymous := by
  unfold restResidual
  split
  next =>
    exact insertUpper_map LimitOrderEntry.anonymous (fun _ _ => rfl) (incoming.entry residual) own
  next => rfl

theorem submitOrder_anonymous (book : MatchingBook τ) (order : ParsedOrder) (tag : τ)
    (trades : List (TradeExecution τ)) (tradeCounter timestampNs : Nat) :
    book.anonymous.submitOrder order.anonymous tag (trades.map TradeExecution.anonymous)
        tradeCounter timestampNs =
      (book.submitOrder order tag trades tradeCounter timestampNs).anonymous := by
  cases side : Direction.ofSide order.side with
  | none =>
    have sameSide : Direction.ofSide order.anonymous.side = none := side
    rw [submitOrder_ignored book order tag trades tradeCounter timestampNs side,
      submitOrder_ignored _ _ _ _ _ _ sameSide]
    rfl
  | some d =>
    have sameSide : Direction.ofSide order.anonymous.side = some d := side
    have ledger := (book.incoming d order tag timestampNs).foldl_record_anonymous
      (book.outcome d order).fills (book.ledger trades tradeCounter)
    have rested := restResidual_anonymous d (book.incoming d order tag timestampNs)
      (book.outcome d order).unmet (book.own d)
    rw [submitOrder_eq book order tag trades tradeCounter timestampNs side,
      submitOrder_eq _ _ _ _ _ _ sameSide, outcome_anonymous, own_anonymous]
    simp only [Outcome.map]
    have incoming : book.anonymous.incoming d order.anonymous tag timestampNs =
        (book.incoming d order tag timestampNs).anonymous := rfl
    have start : book.anonymous.ledger (trades.map TradeExecution.anonymous) tradeCounter =
        (book.ledger trades tradeCounter).anonymous := rfl
    rw [incoming, start, ledger, rested]
    cases d <;> rfl

end MatchingBook

namespace MatchingEngine

theorem findBook_anonymous (engine : MatchingEngine τ) (symbol : Bytes) :
    engine.anonymous.findBook symbol = (engine.findBook symbol).anonymous := by
  obtain ⟨books, tradeCounter⟩ := engine
  unfold findBook anonymous
  induction books with
  | nil => rfl
  | cons stored rest ih =>
    rw [List.map_cons, List.lookup_cons, List.lookup_cons]
    cases symbol == stored.1 with
    | true => rfl
    | false => exact ih

theorem storeBook_anonymous (symbol : Bytes) (book : MatchingBook τ)
    (books : List (Bytes × MatchingBook τ)) :
    storeBook symbol book.anonymous (books.map fun stored => (stored.1, stored.2.anonymous)) =
      (storeBook symbol book books).map fun stored => (stored.1, stored.2.anonymous) := by
  induction books with
  | nil => rfl
  | cons stored rest ih =>
    simp only [List.map_cons, storeBook, ih]
    split <;> rfl

theorem processOrder_anonymous (engine : MatchingEngine τ) (order : ParsedOrder) (tag : τ)
    (trades : List (TradeExecution τ)) (timestampNs : Nat) :
    engine.anonymous.processOrder order.anonymous tag (trades.map TradeExecution.anonymous)
        timestampNs =
      let done := engine.processOrder order tag trades timestampNs
      (done.1, done.2.1.anonymous, done.2.2.map TradeExecution.anonymous) := by
  have routed : routedSymbol order.anonymous = routedSymbol order := rfl
  have counter : engine.anonymous.tradeCounter = engine.tradeCounter := rfl
  simp only [processOrder, routed, counter, findBook_anonymous,
    MatchingBook.submitOrder_anonymous]
  simp only [Submission.anonymous, anonymous, storeBook_anonymous]

end MatchingEngine

end Matching

end HftFixEngine
