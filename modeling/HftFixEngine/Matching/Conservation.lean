import HftFixEngine.Matching.BookTrades
import HftFixEngine.Matching.PriceTime

set_option autoImplicit false

namespace HftFixEngine.Matching

open Protocol Word Consume SortedInsert

variable {τ : Type}

def TradeExecution.tagOf (trade : TradeExecution τ) : Direction → τ
  | .buy => trade.buyTag
  | .sell => trade.sellTag

def restingQty (chosen : τ → Bool) (entries : List (LimitOrderEntry τ)) : Nat :=
  ((entries.filter fun entry => chosen entry.tag).map LimitOrderEntry.remainingQty).sum

def tradedQty (chosen : τ → Bool) (d : Direction) (trades : List (TradeExecution τ)) : Nat :=
  ((trades.filter fun trade => chosen (trade.tagOf d)).map TradeExecution.matchQty).sum

theorem tradedQty_append (chosen : τ → Bool) (d : Direction) (trades more : List (TradeExecution τ)) :
    tradedQty chosen d (trades ++ more) = tradedQty chosen d trades + tradedQty chosen d more := by
  simp [tradedQty]

theorem restingQty_perm (chosen : τ → Bool) {entries others : List (LimitOrderEntry τ)}
    (same : entries.Perm others) : restingQty chosen entries = restingQty chosen others :=
  ((same.filter _).map _).sum_eq

theorem restingQty_cons (chosen : τ → Bool) (entry : LimitOrderEntry τ)
    (entries : List (LimitOrderEntry τ)) :
    restingQty chosen (entry :: entries) =
      (if chosen entry.tag then entry.remainingQty else 0) + restingQty chosen entries := by
  unfold restingQty
  by_cases counted : chosen entry.tag <;> simp [counted]

namespace Incoming

theorem trade_tagOf_own (incoming : Incoming τ) (id : Nat) (passive : LimitOrderEntry τ) (qty : Nat) :
    (incoming.trade id passive qty).tagOf incoming.direction = incoming.tag := by
  unfold trade
  cases incoming.direction <;> rfl

theorem trade_tagOf_flip (incoming : Incoming τ) (id : Nat) (passive : LimitOrderEntry τ) (qty : Nat) :
    (incoming.trade id passive qty).tagOf incoming.direction.flip = passive.tag := by
  unfold trade
  cases incoming.direction <;> rfl

theorem tradedQty_own (incoming : Incoming τ) (chosen : τ → Bool) (tradeCounter : Nat)
    (fills : List (LimitOrderEntry τ × Nat)) :
    tradedQty chosen incoming.direction (incoming.tradesFrom tradeCounter fills) =
      if chosen incoming.tag then (fills.map Prod.snd).sum else 0 := by
  have own : (incoming.tradesFrom tradeCounter fills).filter
      (fun trade => chosen (trade.tagOf incoming.direction)) =
      if chosen incoming.tag then incoming.tradesFrom tradeCounter fills else [] := by
    have tags : ∀ trade, trade ∈ incoming.tradesFrom tradeCounter fills →
        trade.tagOf incoming.direction = incoming.tag := by
      intro trade member
      obtain ⟨numbered, -, rfl⟩ := List.mem_map.mp member
      exact incoming.trade_tagOf_own _ _ _
    cases counted : chosen incoming.tag with
    | true =>
      rw [if_pos rfl, List.filter_eq_self]
      intro trade member
      rw [tags trade member, counted]
    | false =>
      simp only [Bool.false_eq_true, if_false, List.filter_eq_nil_iff]
      intro trade member
      rw [tags trade member, counted]
      exact Bool.false_ne_true
  rw [tradedQty, own]
  split
  next => rw [incoming.map_matchQty_tradesFrom]
  next => rfl

theorem tradedQty_flip (incoming : Incoming τ) (chosen : τ → Bool) (tradeCounter : Nat)
    (fills : List (LimitOrderEntry τ × Nat)) :
    tradedQty chosen incoming.direction.flip (incoming.tradesFrom tradeCounter fills) =
      ((fills.filter fun fill => chosen fill.1.tag).map Prod.snd).sum := by
  have view := incoming.map_tradesFrom
    (fun trade => (trade.tagOf incoming.direction.flip, trade.matchQty))
    (by simp [trade_tagOf_flip, trade_matchQty]) tradeCounter fills
  simp only [trade_tagOf_flip, trade_matchQty] at view
  have filtered := congrArg
    (fun pairs : List (τ × Nat) => ((pairs.filter fun pair => chosen pair.1).map Prod.snd).sum) view
  simpa [List.filter_map, Function.comp_def, tradedQty] using filtered

end Incoming

def submittedQty (chosen : Nat → Bool) (d : Direction) (orders : List ParsedOrder) : Nat :=
  ((orders.zipIdx.filter fun numbered =>
    Direction.ofSide numbered.1.side = some d && chosen numbered.2).map
      fun numbered => toUint32 numbered.1.quantity).sum

theorem submittedQty_append (chosen : Nat → Bool) (d : Direction) (orders : List ParsedOrder)
    (order : ParsedOrder) :
    submittedQty chosen d (orders ++ [order]) = submittedQty chosen d orders +
      if Direction.ofSide order.side = some d ∧ chosen orders.length = true then
        toUint32 order.quantity
      else 0 := by
  by_cases counted : Direction.ofSide order.side = some d ∧ chosen orders.length = true
  next => simp [submittedQty, List.zipIdx_append, counted]
  next =>
    have skipped : (decide (Direction.ofSide order.side = some d) && chosen orders.length) = false := by
      simpa using counted
    simp [submittedQty, List.zipIdx_append, counted, skipped]

namespace MatchingBook

theorem restingQty_restResidual (chosen : τ → Bool) (d : Direction) (incoming : Incoming τ)
    (residual : Nat) (own : List (LimitOrderEntry τ)) :
    restingQty chosen (restResidual d incoming residual own) =
      (if chosen incoming.tag then residual else 0) + restingQty chosen own := by
  unfold restResidual
  split
  next =>
    rw [restingQty_perm chosen (insertUpper_perm _ _), restingQty_cons]
    rfl
  next empty =>
    have none : residual = 0 := by omega
    simp [none]

theorem restingQty_outcome (book : MatchingBook τ) (d : Direction) (order : ParsedOrder)
    (chosen : τ → Bool) :
    (((book.outcome d order).fills.filter fun fill => chosen fill.1.tag).map Prod.snd).sum +
        restingQty chosen (book.outcome d order).rest =
      restingQty chosen (book.own d.flip) := by
  rw [← opposite_eq_own]
  exact consume_draws (fun entry : LimitOrderEntry τ => chosen entry.tag) (fun _ _ => rfl) _ _

end MatchingBook

def Accounted (orders : List ParsedOrder) (book : MatchingBook Nat)
    (trades : List (TradeExecution Nat)) : Prop :=
  ∀ chosen d,
    tradedQty chosen d trades + restingQty chosen (book.own d) = submittedQty chosen d orders

theorem Accounted.submitOrder {orders : List ParsedOrder} {book : MatchingBook Nat}
    {made : List (TradeExecution Nat)} (accounted : Accounted orders book made)
    (order : ParsedOrder) (trades : List (TradeExecution Nat)) (tradeCounter timestampNs : Nat) :
    Accounted (orders ++ [order])
      (book.submitOrder order orders.length trades tradeCounter timestampNs).book
      (made ++ book.appended order orders.length tradeCounter timestampNs) := by
  intro chosen d
  have before := accounted chosen d
  rw [submittedQty_append, tradedQty_append]
  cases side : Direction.ofSide order.side with
  | none =>
    rw [MatchingBook.submitOrder_ignored book order _ trades tradeCounter timestampNs side]
    simp [MatchingBook.appended, side, tradedQty] at before ⊢
    omega
  | some e =>
    rw [MatchingBook.appended_of_side book order _ tradeCounter timestampNs side]
    rcases e.eq_or_eq_flip d with rfl | rfl
    next =>
      -- The side of the order: its fills and its residual make up its quantity.
      have traded := (book.incoming d order orders.length timestampNs).tradedQty_own chosen
        tradeCounter (book.outcome d order).fills
      have whole := book.outcome_conserves d order
      rw [MatchingBook.submitOrder_own _ trades tradeCounter timestampNs side,
        MatchingBook.restingQty_restResidual]
      simp only [MatchingBook.incoming] at traded ⊢
      rw [traded]
      by_cases counted : chosen orders.length = true
      next =>
        simp only [counted, if_true, and_self]
        omega
      next =>
        simp only [counted, Bool.false_eq_true, if_false, and_false]
        omega
    next =>
      -- The other side: what was filled of an entry is what it lost.
      have traded := (book.incoming e order orders.length timestampNs).tradedQty_flip chosen
        tradeCounter (book.outcome e order).fills
      have drawn := book.restingQty_outcome e order chosen
      have other : ¬ some e = some e.flip := by cases e <;> simp [Direction.flip]
      rw [← MatchingBook.opposite_eq_own,
        MatchingBook.submitOrder_opposite _ trades tradeCounter timestampNs side]
      simp only [MatchingBook.incoming, other, false_and, if_false] at traded ⊢
      rw [traded]
      omega

structure BookHistory where
  book : MatchingBook Nat
  made : List (TradeExecution Nat) := []
  deriving DecidableEq, Repr

namespace BookHistory

def submit (history : BookHistory) (call : Call Nat) (tag : Nat) : BookHistory :=
  let done := history.book.submitOrder call.order tag call.trades call.tradeCounter call.timestampNs
  { book := done.book, made := history.made ++ done.trades.drop call.trades.length }

def after (symbol : Bytes) (calls : List (Call Nat)) : BookHistory :=
  calls.zipIdx.foldl (fun history numbered => history.submit numbered.1 numbered.2)
    { book := { symbol } }

theorem after_append (symbol : Bytes) (calls : List (Call Nat)) (call : Call Nat) :
    after symbol (calls ++ [call]) = (after symbol calls).submit call calls.length := by
  simp [after, List.zipIdx_append]

theorem submit_made (history : BookHistory) (call : Call Nat) (tag : Nat) :
    (history.submit call tag).made = history.made ++
      history.book.appended call.order tag call.tradeCounter call.timestampNs := by
  simp [submit, MatchingBook.submitOrder_trades]

theorem after_accounted (symbol : Bytes) (calls : List (Call Nat)) :
    Accounted (calls.map Call.order) (after symbol calls).book (after symbol calls).made := by
  induction calls using List.reverseRecOn with
  | nil =>
    intro chosen d
    cases d <;> rfl
  | append_singleton calls call ih =>
    have next := ih.submitOrder call.order call.trades call.tradeCounter call.timestampNs
    rw [List.length_map] at next
    rw [after_append, List.map_append, submit_made]
    exact next

theorem after_totals (symbol : Bytes) (calls : List (Call Nat)) :
    (after symbol calls).book.totalTrades = u64 (after symbol calls).made.length ∧
      (after symbol calls).book.totalVolume =
        u64 ((after symbol calls).made.map TradeExecution.matchQty).sum := by
  induction calls using List.reverseRecOn with
  | nil => exact ⟨rfl, rfl⟩
  | append_singleton calls call ih =>
    have tradesLt : (after symbol calls).book.totalTrades < 2 ^ 64 := by
      rw [ih.1]
      exact Nat.mod_lt _ (by decide)
    have volumeLt : (after symbol calls).book.totalVolume < 2 ^ 64 := by
      rw [ih.2]
      exact Nat.mod_lt _ (by decide)
    have totals := (after symbol calls).book.submitOrder_totals call.order calls.length
      call.trades call.tradeCounter call.timestampNs tradesLt volumeLt
    rw [after_append, submit_made, List.length_append, List.map_append, List.sum_append,
      MatchingBook.length_appended, MatchingBook.map_matchQty_appended]
    rw [ih.1, ih.2] at totals
    refine ⟨totals.1.trans ?_, totals.2.trans ?_⟩
    all_goals
      simp only [u64]
      omega

end BookHistory

def sideQty (d : Direction) (calls : List (Call Nat)) : Nat :=
  ((calls.filter fun call => call.order.side = d.code).map
    fun call => toUint32 call.order.quantity).sum

theorem submittedQty_all (d : Direction) (calls : List (Call Nat)) :
    submittedQty (fun _ => true) d (calls.map Call.order) = sideQty d calls := by
  induction calls using List.reverseRecOn with
  | nil => rfl
  | append_singleton calls call ih =>
    rw [List.map_append, List.map_singleton, submittedQty_append, ih]
    simp only [Direction.ofSide_eq_some, and_true, sideQty, List.filter_append, List.map_append,
      List.sum_append]
    by_cases counted : call.order.side = d.code <;> simp [counted]

theorem submittedQty_single (d : Direction) (calls : List (Call Nat)) (position : Nat) :
    submittedQty (fun other => other == position) d (calls.map Call.order) =
      match calls[position]? with
      | none => 0
      | some call => if call.order.side = d.code then toUint32 call.order.quantity else 0 := by
  induction calls using List.reverseRecOn with
  | nil => rfl
  | append_singleton calls call ih =>
    rw [List.map_append, List.map_singleton, submittedQty_append, ih, List.length_map]
    rcases Nat.lt_trichotomy position calls.length with earlier | last | later
    next =>
      have other : (calls.length == position) = false := by
        simp only [beq_eq_false_iff_ne]
        omega
      rw [List.getElem?_append_left earlier]
      simp [other]
    next =>
      subst last
      simp [Direction.ofSide_eq_some]
    next =>
      have other : (calls.length == position) = false := by
        simp only [beq_eq_false_iff_ne]
        omega
      rw [List.getElem?_eq_none (by omega), List.getElem?_eq_none (by simp; omega)]
      simp [other]

theorem tradedQty_all (d : Direction) (trades : List (TradeExecution Nat)) :
    tradedQty (fun _ => true) d trades = (trades.map TradeExecution.matchQty).sum := by
  simp [tradedQty]

theorem restingQty_all (entries : List (LimitOrderEntry Nat)) :
    restingQty (fun _ => true) entries = (entries.map LimitOrderEntry.remainingQty).sum := by
  simp [restingQty]

def tradedBy (position : Nat) (trades : List (TradeExecution Nat)) : Nat :=
  ((trades.filter fun trade => trade.buyTag == position).map TradeExecution.matchQty).sum +
    ((trades.filter fun trade => trade.sellTag == position).map TradeExecution.matchQty).sum

def restingOf (position : Nat) (book : MatchingBook Nat) : Nat :=
  (((book.bids ++ book.asks).filter fun entry => entry.tag == position).map
    LimitOrderEntry.remainingQty).sum

theorem Accounted.single {calls : List (Call Nat)} {book : MatchingBook Nat}
    {made : List (TradeExecution Nat)} (accounted : Accounted (calls.map Call.order) book made)
    {position : Nat} {call : Call Nat} (found : calls[position]? = some call)
    (sided : call.order.side = 1 ∨ call.order.side = 2) :
    tradedBy position made + restingOf position book = toUint32 call.order.quantity := by
  have bought := accounted (fun other => other == position) .buy
  have sold := accounted (fun other => other == position) .sell
  rw [submittedQty_single, found] at bought sold
  have sides : restingOf position book =
      restingQty (fun other => other == position) book.bids +
        restingQty (fun other => other == position) book.asks := by
    simp [restingOf, restingQty]
  have trades : tradedBy position made =
      tradedQty (fun other => other == position) .buy made +
        tradedQty (fun other => other == position) .sell made := rfl
  simp only [Direction.code, MatchingBook.own] at bought sold
  rw [sides, trades]
  rcases sided with buy | sell
  next =>
    simp only [buy, if_true, show ¬ (1 : Int) = 2 by decide, if_false] at bought sold
    omega
  next =>
    simp only [sell, if_true, show ¬ (2 : Int) = 1 by decide, if_false] at bought sold
    omega

theorem matching_book_conserves_quantity (symbol : Bytes) (calls : List (Call Nat)) :
    let history := BookHistory.after symbol calls
    let traded := (history.made.map TradeExecution.matchQty).sum
    sideQty .buy calls = (history.book.bids.map LimitOrderEntry.remainingQty).sum + traded ∧
      sideQty .sell calls = (history.book.asks.map LimitOrderEntry.remainingQty).sum + traded ∧
      history.book.totalVolume = u64 traded ∧
      history.book.totalTrades = u64 history.made.length ∧
      (history.made.length < 2 ^ 64 → history.book.totalTrades = history.made.length) ∧
      (∀ (book : MatchingBook Nat) (call : Call Nat) (tag : Nat),
        call.order.side ≠ 1 → call.order.side ≠ 2 →
        book.submitOrder call.order tag call.trades call.tradeCounter call.timestampNs =
          { matched := false, book := book, trades := call.trades
            tradeCounter := call.tradeCounter }) ∧
      (∀ position call, calls[position]? = some call →
        call.order.side = 1 ∨ call.order.side = 2 →
        tradedBy position history.made + restingOf position history.book =
          toUint32 call.order.quantity) := by
  intro history traded
  have accounted := BookHistory.after_accounted symbol calls
  have totals := BookHistory.after_totals symbol calls
  have side (d : Direction) : sideQty d calls =
      ((history.book.own d).map LimitOrderEntry.remainingQty).sum + traded := by
    have all := accounted (fun _ => true) d
    rw [submittedQty_all, tradedQty_all, restingQty_all] at all
    rw [← all, Nat.add_comm]
  refine ⟨side .buy, side .sell, totals.2, totals.1, ?_, ?_, ?_⟩
  next =>
    intro few
    rw [totals.1]
    exact Nat.mod_eq_of_lt few
  next =>
    intro book call tag notBuy notSell
    exact book.submitOrder_ignored _ _ _ _ _ (by simp [Direction.ofSide, notBuy, notSell])
  next =>
    intro position call found sided
    exact accounted.single found sided

end HftFixEngine.Matching
