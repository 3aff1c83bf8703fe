import HftFixEngine.Matching.BookTrades

set_option autoImplicit false

namespace HftFixEngine.Matching

open Protocol Word Consume

variable {τ : Type}

def TradeExecution.withoutId (trade : TradeExecution τ) : TradeExecution τ :=
  { trade with tradeId := 0 }

namespace MatchingBook

section Submit

variable (book : MatchingBook τ) (order : ParsedOrder) (tag : τ)
    (trades : List (TradeExecution τ)) (tradeCounter timestampNs : Nat)

@[simp]
theorem submitOrder_symbol :
    (book.submitOrder order tag trades tradeCounter timestampNs).book.symbol = book.symbol := by
  cases side : Direction.ofSide order.side with
  | none => rw [submitOrder_ignored book order tag trades tradeCounter timestampNs side]
  | some d =>
    rw [submitOrder_eq book order tag trades tradeCounter timestampNs side]
    cases d <;> rfl

theorem submitOrder_book :
    (book.submitOrder order tag trades tradeCounter timestampNs).book =
      (book.submitOrder order tag [] 0 0).book := by
  cases side : Direction.ofSide order.side with
  | none => simp only [submitOrder_ignored book order tag _ _ _ side]
  | some d =>
    have totals (fills : List (LimitOrderEntry τ × Nat)) (ledger other : Ledger τ)
        (sameTrades : ledger.totalTrades = other.totalTrades)
        (sameVolume : ledger.totalVolume = other.totalVolume) :
        (fills.foldl (book.incoming d order tag timestampNs).record ledger).totalTrades =
            (fills.foldl (book.incoming d order tag 0).record other).totalTrades ∧
          (fills.foldl (book.incoming d order tag timestampNs).record ledger).totalVolume =
            (fills.foldl (book.incoming d order tag 0).record other).totalVolume := by
      induction fills generalizing ledger other with
      | nil => exact ⟨sameTrades, sameVolume⟩
      | cons fill fills ih =>
        apply ih
        next => simp only [Incoming.record, sameTrades]
        next => simp only [Incoming.record, sameVolume]
    obtain ⟨sameTrades, sameVolume⟩ := totals (book.outcome d order).fills
      (book.ledger trades tradeCounter) (book.ledger [] 0) rfl rfl
    rw [submitOrder_eq book order tag trades tradeCounter timestampNs side,
      submitOrder_eq book order tag [] 0 0 side]
    simp only [sameTrades, sameVolume]
    rfl

theorem map_withoutId_appended (otherCounter : Nat) :
    (book.appended order tag tradeCounter timestampNs).map TradeExecution.withoutId =
      (book.appended order tag otherCounter timestampNs).map TradeExecution.withoutId := by
  cases side : Direction.ofSide order.side with
  | none => simp [appended, side]
  | some d =>
    have blind : ∀ id other passive qty,
        ((book.incoming d order tag timestampNs).trade id passive qty).withoutId =
          ((book.incoming d order tag timestampNs).trade other passive qty).withoutId := by
      intro id other passive qty
      cases d <;> rfl
    rw [appended_of_side book order tag tradeCounter timestampNs side,
      appended_of_side book order tag otherCounter timestampNs side,
      Incoming.map_tradesFrom _ _ blind, Incoming.map_tradesFrom _ _ blind]

theorem symbol_appended :
    ∀ trade, trade ∈ book.appended order tag tradeCounter timestampNs →
      trade.symbol = book.symbol := by
  intro trade member
  cases side : Direction.ofSide order.side with
  | none => simp [appended, side] at member
  | some d =>
    rw [appended_of_side book order tag tradeCounter timestampNs side] at member
    obtain ⟨numbered, -, rfl⟩ := List.mem_map.mp member
    exact Incoming.trade_symbol _ _ _ _

theorem map_tradeId_appended :
    (book.appended order tag tradeCounter timestampNs).map TradeExecution.tradeId =
      (List.range (book.fills order).length).map fun i => u64 (tradeCounter + i + 1) := by
  cases side : Direction.ofSide order.side with
  | none => simp [appended, fills, side]
  | some d =>
    rw [appended_of_side book order tag tradeCounter timestampNs side,
      Incoming.map_tradeId_tradesFrom, fills_of_side book order side]

end Submit

end MatchingBook

namespace MatchingEngine

theorem lookup_cons_of_ne {key other : Bytes} (different : other ≠ key) (book : MatchingBook τ)
    (books : List (Bytes × MatchingBook τ)) :
    List.lookup other ((key, book) :: books) = books.lookup other := by
  have elsewhere : (other == key) = false := by simpa using different
  rw [List.lookup_cons, elsewhere]

theorem lookup_storeBook (symbol other : Bytes) (book : MatchingBook τ)
    (books : List (Bytes × MatchingBook τ)) :
    (storeBook symbol book books).lookup other =
      if other = symbol then some book else books.lookup other := by
  by_cases same : other = symbol
  next =>
    subst same
    rw [if_pos rfl]
    induction books with
    | nil => simp [storeBook]
    | cons stored rest ih =>
      obtain ⟨key, old⟩ := stored
      by_cases here : key = other
      next => simp [storeBook, here]
      next =>
        simp only [storeBook, here, if_false]
        rw [lookup_cons_of_ne (Ne.symm here), ih]
  next =>
    rw [if_neg same]
    induction books with
    | nil => exact lookup_cons_of_ne same book []
    | cons stored rest ih =>
      obtain ⟨key, old⟩ := stored
      by_cases here : key = symbol
      next =>
        subst here
        simp only [storeBook, if_true]
        rw [lookup_cons_of_ne same, lookup_cons_of_ne same]
      next =>
        simp only [storeBook, here, if_false, List.lookup_cons, ih]

theorem sum_storeBook (weight : MatchingBook τ → Nat) (engine : MatchingEngine τ) (symbol : Bytes)
    (fresh : weight { symbol } = 0) (book : MatchingBook τ) :
    ((storeBook symbol book engine.books).map fun stored => weight stored.2).sum +
        weight (engine.findBook symbol) =
      (engine.books.map fun stored => weight stored.2).sum + weight book := by
  obtain ⟨books, tradeCounter⟩ := engine
  simp only [findBook]
  induction books with
  | nil => simp [storeBook, fresh]
  | cons stored rest ih =>
    obtain ⟨key, old⟩ := stored
    by_cases here : key = symbol
    next =>
      subst here
      simp only [storeBook, if_true, List.map_cons, List.sum_cons, List.lookup_cons_self,
        Option.getD_some]
      omega
    next =>
      simp only [storeBook, here, if_false, List.map_cons, List.sum_cons,
        lookup_cons_of_ne (Ne.symm here)]
      omega

theorem foldl_u64_sum (weight : MatchingBook τ → Nat) (books : List (Bytes × MatchingBook τ)) :
    books.foldl (fun count stored => u64 (count + weight stored.2)) 0 =
      u64 (books.map fun stored => weight stored.2).sum := by
  induction books using List.reverseRecOn with
  | nil => rfl
  | append_singleton books stored ih =>
    rw [List.foldl_concat, ih]
    simp only [u64, List.map_append, List.map_cons, List.map_nil, List.sum_append, List.sum_cons,
      List.sum_nil]
    omega

end MatchingEngine

structure EngineCall (τ : Type) where
  order : ParsedOrder
  tag : τ
  trades : List (TradeExecution τ) := []
  timestampNs : Nat := 0

namespace EngineCall

def symbol (call : EngineCall τ) : Bytes :=
  MatchingEngine.routedSymbol call.order

def routedTo (symbol : Bytes) (calls : List (EngineCall τ)) : List (EngineCall τ) :=
  calls.filter fun call => call.symbol = symbol

def submitted (call : EngineCall τ) : ParsedOrder × τ :=
  (call.order, call.tag)

theorem routedTo_append_own (calls : List (EngineCall τ)) (call : EngineCall τ) :
    routedTo call.symbol (calls ++ [call]) = routedTo call.symbol calls ++ [call] := by
  simp [routedTo]

theorem routedTo_append_other {symbol : Bytes} (calls : List (EngineCall τ)) (call : EngineCall τ)
    (other : call.symbol ≠ symbol) : routedTo symbol (calls ++ [call]) = routedTo symbol calls := by
  simp [routedTo, other]

end EngineCall

structure StandAlone (τ : Type) where
  book : MatchingBook τ
  tradeCounter : Nat := 0
  made : List (TradeExecution τ) := []

namespace StandAlone

def submit (alone : StandAlone τ) (call : EngineCall τ) : StandAlone τ :=
  let done := alone.book.submitOrder call.order call.tag call.trades alone.tradeCounter
    call.timestampNs
  { book := done.book
    tradeCounter := done.tradeCounter
    made := alone.made ++ done.trades.drop call.trades.length }

def after (symbol : Bytes) (calls : List (EngineCall τ)) : StandAlone τ :=
  calls.foldl submit { book := { symbol } }

theorem after_append (symbol : Bytes) (calls : List (EngineCall τ)) (call : EngineCall τ) :
    after symbol (calls ++ [call]) = (after symbol calls).submit call :=
  List.foldl_concat _ _ _ _

theorem submit_made (alone : StandAlone τ) (call : EngineCall τ) :
    (alone.submit call).made = alone.made ++
      alone.book.appended call.order call.tag alone.tradeCounter call.timestampNs := by
  simp [submit, MatchingBook.submitOrder_trades]

theorem after_symbol (symbol : Bytes) (calls : List (EngineCall τ)) :
    (after symbol calls).book.symbol = symbol := by
  induction calls using List.reverseRecOn with
  | nil => rfl
  | append_singleton calls call ih =>
    rw [after_append]
    exact (MatchingBook.submitOrder_symbol _ _ _ _ _ _).trans ih

theorem after_book (symbol : Bytes) (calls : List (EngineCall τ)) :
    (after symbol calls).book =
      (calls.map EngineCall.submitted).foldl
        (fun book fed => (book.submitOrder fed.1 fed.2 [] 0 0).book) { symbol } := by
  induction calls using List.reverseRecOn with
  | nil => rfl
  | append_singleton calls call ih =>
    rw [after_append, List.map_append, List.foldl_append, ← ih]
    exact MatchingBook.submitOrder_book _ _ _ _ _ _

theorem after_totals_lt (symbol : Bytes) (calls : List (EngineCall τ)) :
    (after symbol calls).book.totalTrades < 2 ^ 64 ∧
      (after symbol calls).book.totalVolume < 2 ^ 64 := by
  induction calls using List.reverseRecOn with
  | nil => exact ⟨Nat.two_pow_pos 64, Nat.two_pow_pos 64⟩
  | append_singleton calls call ih =>
    have totals := (after symbol calls).book.submitOrder_totals call.order call.tag
      call.trades (after symbol calls).tradeCounter call.timestampNs ih.1 ih.2
    rw [after_append]
    exact ⟨totals.1 ▸ Nat.mod_lt _ (by decide), totals.2 ▸ Nat.mod_lt _ (by decide)⟩

end StandAlone

structure EngineHistory (τ : Type) where
  engine : MatchingEngine τ := {}
  made : List (TradeExecution τ) := []

namespace EngineHistory

def process (history : EngineHistory τ) (call : EngineCall τ) : EngineHistory τ :=
  let done := history.engine.processOrder call.order call.tag call.trades call.timestampNs
  { engine := done.2.1, made := history.made ++ done.2.2.drop call.trades.length }

def after (calls : List (EngineCall τ)) : EngineHistory τ :=
  calls.foldl process {}

-- The book a call is routed to, made on the spot if there is none.
def target (history : EngineHistory τ) (call : EngineCall τ) : MatchingBook τ :=
  history.engine.findBook call.symbol

def appended (history : EngineHistory τ) (call : EngineCall τ) : List (TradeExecution τ) :=
  (history.target call).appended call.order call.tag history.engine.tradeCounter call.timestampNs

theorem after_append (calls : List (EngineCall τ)) (call : EngineCall τ) :
    after (calls ++ [call]) = (after calls).process call :=
  List.foldl_concat _ _ _ _

theorem process_made (history : EngineHistory τ) (call : EngineCall τ) :
    (history.process call).made = history.made ++ history.appended call := by
  simp [process, MatchingEngine.processOrder, MatchingBook.submitOrder_trades, appended, target,
    EngineCall.symbol]

theorem process_books (history : EngineHistory τ) (call : EngineCall τ) :
    (history.process call).engine.books =
      MatchingEngine.storeBook call.symbol
        ((history.target call).submitOrder call.order call.tag call.trades
          history.engine.tradeCounter call.timestampNs).book history.engine.books := rfl

theorem process_tradeCounter (history : EngineHistory τ) (call : EngineCall τ)
    (counterLt : history.engine.tradeCounter < 2 ^ 64) :
    (history.process call).engine.tradeCounter =
      u64 (history.engine.tradeCounter + ((history.target call).fills call.order).length) :=
  (history.target call).submitOrder_tradeCounter call.order call.tag call.trades
    history.engine.tradeCounter call.timestampNs counterLt

theorem findBook_of_lookup {engine : MatchingEngine τ} {symbol : Bytes}
    {routed : List (EngineCall τ)}
    (stored : engine.books.lookup symbol =
      if routed = [] then none else some (StandAlone.after symbol routed).book) :
    engine.findBook symbol = (StandAlone.after symbol routed).book := by
  rw [MatchingEngine.findBook, stored]
  split
  next empty =>
    rw [empty]
    rfl
  next => rfl

theorem lookup_after (calls : List (EngineCall τ)) (symbol : Bytes) :
    (after calls).engine.books.lookup symbol =
      if EngineCall.routedTo symbol calls = [] then none
      else some (StandAlone.after symbol (EngineCall.routedTo symbol calls)).book := by
  induction calls using List.reverseRecOn with
  | nil => rfl
  | append_singleton calls call ih =>
    rw [after_append, process_books, MatchingEngine.lookup_storeBook]
    by_cases own : symbol = call.symbol
    next =>
      subst own
      rw [if_pos rfl, EngineCall.routedTo_append_own, if_neg (by simp), StandAlone.after_append,
        target, findBook_of_lookup ih, MatchingBook.submitOrder_book]
      exact congrArg some (MatchingBook.submitOrder_book _ _ _ _ _ _).symm
    next =>
      rw [if_neg own, EngineCall.routedTo_append_other _ _ (Ne.symm own), ih]

theorem target_after (calls : List (EngineCall τ)) (call : EngineCall τ) :
    (after calls).target call =
      (StandAlone.after call.symbol (EngineCall.routedTo call.symbol calls)).book :=
  findBook_of_lookup (lookup_after calls call.symbol)

theorem symbol_appended (calls : List (EngineCall τ)) (call : EngineCall τ) :
    ∀ trade, trade ∈ (after calls).appended call → trade.symbol = call.symbol := by
  intro trade member
  rw [MatchingBook.symbol_appended _ _ _ _ _ trade member, target_after, StandAlone.after_symbol]

theorem made_after (calls : List (EngineCall τ)) (symbol : Bytes) :
    ((after calls).made.filter fun trade => trade.symbol = symbol).map TradeExecution.withoutId =
      (StandAlone.after symbol (EngineCall.routedTo symbol calls)).made.map
        TradeExecution.withoutId := by
  induction calls using List.reverseRecOn with
  | nil => rfl
  | append_singleton calls call ih =>
    have tagged := symbol_appended calls call
    rw [after_append, process_made, List.filter_append, List.map_append, ih]
    by_cases own : call.symbol = symbol
    next =>
      subst own
      have all : ((after calls).appended call).filter (fun trade => trade.symbol = call.symbol) =
          (after calls).appended call := by
        rw [List.filter_eq_self]
        intro trade member
        simpa using tagged trade member
      rw [all, EngineCall.routedTo_append_own, StandAlone.after_append, StandAlone.submit_made,
        List.map_append, appended, target_after]
      exact congrArg _ (MatchingBook.map_withoutId_appended _ _ _ _ _ _)
    next =>
      have none : ((after calls).appended call).filter (fun trade => trade.symbol = symbol) = [] := by
        rw [List.filter_eq_nil_iff]
        intro trade member
        simpa [tagged trade member] using own
      rw [none, EngineCall.routedTo_append_other _ _ own]
      simp

theorem tradeCounter_after (calls : List (EngineCall τ)) :
    (after calls).engine.tradeCounter = u64 (after calls).made.length := by
  induction calls using List.reverseRecOn with
  | nil => rfl
  | append_singleton calls call ih =>
    have counterLt : (after calls).engine.tradeCounter < 2 ^ 64 := by
      rw [ih]
      exact Nat.mod_lt _ (by decide)
    rw [after_append, process_tradeCounter _ _ counterLt, ih, process_made, List.length_append,
      appended, MatchingBook.length_appended]
    simp only [u64]
    omega

theorem tradeId_after (calls : List (EngineCall τ)) :
    (after calls).made.map TradeExecution.tradeId =
      (List.range (after calls).made.length).map fun i => u64 (i + 1) := by
  induction calls using List.reverseRecOn with
  | nil => rfl
  | append_singleton calls call ih =>
    rw [after_append, process_made, List.map_append, ih, List.length_append, List.range_add,
      List.map_append, List.map_map, appended, MatchingBook.map_tradeId_appended,
      MatchingBook.length_appended, tradeCounter_after]
    congr 1
    apply List.map_congr_left
    intro i _
    simp only [Function.comp_apply, u64]
    omega

theorem totals_after (calls : List (EngineCall τ)) :
    (after calls).engine.totalTrades = u64 (after calls).made.length ∧
      (after calls).engine.totalVolume =
        u64 ((after calls).made.map TradeExecution.matchQty).sum := by
  simp only [MatchingEngine.totalTrades, MatchingEngine.totalVolume,
    MatchingEngine.foldl_u64_sum MatchingBook.totalTrades,
    MatchingEngine.foldl_u64_sum MatchingBook.totalVolume]
  induction calls using List.reverseRecOn with
  | nil => exact ⟨rfl, rfl⟩
  | append_singleton calls call ih =>
    have bounds := StandAlone.after_totals_lt call.symbol (EngineCall.routedTo call.symbol calls)
    rw [← target_after] at bounds
    obtain ⟨trades, volume⟩ := ((after calls).target call).submitOrder_totals call.order call.tag
      call.trades (after calls).engine.tradeCounter call.timestampNs bounds.1 bounds.2
    have tradesSum := (after calls).engine.sum_storeBook MatchingBook.totalTrades call.symbol rfl
      (((after calls).target call).submitOrder call.order call.tag call.trades
        (after calls).engine.tradeCounter call.timestampNs).book
    have volumeSum := (after calls).engine.sum_storeBook MatchingBook.totalVolume call.symbol rfl
      (((after calls).target call).submitOrder call.order call.tag call.trades
        (after calls).engine.tradeCounter call.timestampNs).book
    rw [trades] at tradesSum
    rw [volume] at volumeSum
    rw [after_append, process_books, process_made, List.length_append, List.map_append,
      List.sum_append, appended, MatchingBook.length_appended, MatchingBook.map_matchQty_appended]
    simp only [u64, target] at ih tradesSum volumeSum ⊢
    omega

end EngineHistory

theorem matching_engine_symbols_independent (calls : List (EngineCall τ)) :
    let history := EngineHistory.after calls
    (∀ symbol, history.engine.books.lookup symbol =
        if EngineCall.routedTo symbol calls = [] then none
        else some (StandAlone.after symbol (EngineCall.routedTo symbol calls)).book) ∧
      (∀ symbol,
        (history.made.filter fun trade => trade.symbol = symbol).map TradeExecution.withoutId =
          (StandAlone.after symbol (EngineCall.routedTo symbol calls)).made.map
            TradeExecution.withoutId) ∧
      history.made.map TradeExecution.tradeId =
        (List.range history.made.length).map (fun i => u64 (i + 1)) ∧
      (history.made.length < 2 ^ 64 →
        history.made.map TradeExecution.tradeId = List.range' 1 history.made.length) ∧
      history.engine.totalTrades = u64 history.made.length ∧
      history.engine.totalVolume = u64 (history.made.map TradeExecution.matchQty).sum ∧
      (∀ others : List (EngineCall τ),
        (∀ symbol, (EngineCall.routedTo symbol others).map EngineCall.submitted =
          (EngineCall.routedTo symbol calls).map EngineCall.submitted) →
        ∀ symbol, (EngineHistory.after others).engine.books.lookup symbol =
          history.engine.books.lookup symbol) := by
  intro history
  have totals := EngineHistory.totals_after calls
  have ids := EngineHistory.tradeId_after calls
  refine ⟨EngineHistory.lookup_after calls, EngineHistory.made_after calls, ids, ?_, totals.1,
    totals.2, ?_⟩
  next =>
    intro few
    rw [ids, List.range'_eq_map_range]
    apply List.map_congr_left
    intro i member
    have below : i < history.made.length := List.mem_range.mp member
    rw [u64, Nat.mod_eq_of_lt (by omega), Nat.add_comm]
  next =>
    intro others agree symbol
    have same := agree symbol
    have none : EngineCall.routedTo symbol others = [] ↔ EngineCall.routedTo symbol calls = [] := by
      rw [← List.map_eq_nil_iff (f := EngineCall.submitted), same, List.map_eq_nil_iff]
    rw [EngineHistory.lookup_after, EngineHistory.lookup_after, StandAlone.after_book,
      StandAlone.after_book, same]
    simp only [none]

end HftFixEngine.Matching
