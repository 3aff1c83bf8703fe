import HftFixEngine.Matching.MatchingSpec
import Mathlib.Data.List.Induction

set_option autoImplicit false

namespace HftFixEngine.Matching

open Protocol Word Consume

variable {τ : Type}

namespace Incoming

def tradesFrom (incoming : Incoming τ) (tradeCounter : Nat)
    (fills : List (LimitOrderEntry τ × Nat)) : List (TradeExecution τ) :=
  fills.zipIdx.map fun numbered =>
    incoming.trade (u64 (tradeCounter + numbered.2 + 1)) numbered.1.1 numbered.1.2

theorem length_tradesFrom (incoming : Incoming τ) (tradeCounter : Nat)
    (fills : List (LimitOrderEntry τ × Nat)) :
    (incoming.tradesFrom tradeCounter fills).length = fills.length := by
  simp [tradesFrom]

theorem map_tradesFrom {β : Type} (incoming : Incoming τ) (view : TradeExecution τ → β)
    (blind : ∀ id other passive qty,
      view (incoming.trade id passive qty) = view (incoming.trade other passive qty))
    (tradeCounter : Nat) (fills : List (LimitOrderEntry τ × Nat)) :
    (incoming.tradesFrom tradeCounter fills).map view =
      fills.map fun fill => view (incoming.trade 0 fill.1 fill.2) := by
  have step : view ∘ (fun numbered : (LimitOrderEntry τ × Nat) × Nat =>
      incoming.trade (u64 (tradeCounter + numbered.2 + 1)) numbered.1.1 numbered.1.2) =
      (fun fill => view (incoming.trade 0 fill.1 fill.2)) ∘ Prod.fst := by
    funext numbered
    exact blind _ _ _ _
  rw [tradesFrom, List.map_map, step, ← List.map_map, List.zipIdx_map_fst]

theorem trade_tradeId (incoming : Incoming τ) (id : Nat) (passive : LimitOrderEntry τ) (qty : Nat) :
    (incoming.trade id passive qty).tradeId = id := by
  unfold trade
  split <;> rfl

theorem trade_matchQty (incoming : Incoming τ) (id : Nat) (passive : LimitOrderEntry τ) (qty : Nat) :
    (incoming.trade id passive qty).matchQty = qty := by
  unfold trade
  split <;> rfl

theorem trade_symbol (incoming : Incoming τ) (id : Nat) (passive : LimitOrderEntry τ) (qty : Nat) :
    (incoming.trade id passive qty).symbol = incoming.symbol := by
  unfold trade
  split <;> rfl

theorem map_matchQty_tradesFrom (incoming : Incoming τ) (tradeCounter : Nat)
    (fills : List (LimitOrderEntry τ × Nat)) :
    (incoming.tradesFrom tradeCounter fills).map TradeExecution.matchQty = fills.map Prod.snd := by
  rw [incoming.map_tradesFrom TradeExecution.matchQty (by simp [trade_matchQty])]
  simp [trade_matchQty]

theorem map_tradeId_tradesFrom (incoming : Incoming τ) (tradeCounter : Nat)
    (fills : List (LimitOrderEntry τ × Nat)) :
    (incoming.tradesFrom tradeCounter fills).map TradeExecution.tradeId =
      (List.range fills.length).map fun i => u64 (tradeCounter + i + 1) := by
  have step : TradeExecution.tradeId ∘ (fun numbered : (LimitOrderEntry τ × Nat) × Nat =>
      incoming.trade (u64 (tradeCounter + numbered.2 + 1)) numbered.1.1 numbered.1.2) =
      (fun i => u64 (tradeCounter + i + 1)) ∘ Prod.snd := by
    funext numbered
    exact incoming.trade_tradeId _ _ _
  rw [tradesFrom, List.map_map, step, ← List.map_map, List.zipIdx_map_snd,
    List.range_eq_range']

theorem foldl_record_tradeCounter (incoming : Incoming τ) (fills : List (LimitOrderEntry τ × Nat))
    (ledger : Ledger τ) (counter : ledger.tradeCounter < 2 ^ 64) :
    (fills.foldl incoming.record ledger).tradeCounter =
      u64 (ledger.tradeCounter + fills.length) := by
  induction fills using List.reverseRecOn with
  | nil => exact (Nat.mod_eq_of_lt counter).symm
  | append_singleton fills fill ih =>
    rw [List.foldl_concat, record, ih]
    simp only [u64, List.length_append, List.length_singleton]
    omega

-- The ids do not depend on whether the counter starts below its bound: it is reduced with each.
theorem foldl_record_nextId (incoming : Incoming τ) (fills : List (LimitOrderEntry τ × Nat))
    (ledger : Ledger τ) :
    u64 ((fills.foldl incoming.record ledger).tradeCounter + 1) =
      u64 (ledger.tradeCounter + fills.length + 1) := by
  induction fills using List.reverseRecOn with
  | nil => rfl
  | append_singleton fills fill ih =>
    rw [List.foldl_concat, record, ih]
    simp only [u64, List.length_append, List.length_singleton]
    omega

theorem foldl_record_trades (incoming : Incoming τ) (fills : List (LimitOrderEntry τ × Nat))
    (ledger : Ledger τ) :
    (fills.foldl incoming.record ledger).trades =
      ledger.trades ++ incoming.tradesFrom ledger.tradeCounter fills := by
  induction fills using List.reverseRecOn with
  | nil => simp [tradesFrom]
  | append_singleton fills fill ih =>
    rw [List.foldl_concat, record, ih, incoming.foldl_record_nextId]
    simp [tradesFrom, List.zipIdx_append]

theorem foldl_record_totals (incoming : Incoming τ) (fills : List (LimitOrderEntry τ × Nat))
    (ledger : Ledger τ) (trades : ledger.totalTrades < 2 ^ 64)
    (volume : ledger.totalVolume < 2 ^ 64) :
    (fills.foldl incoming.record ledger).totalTrades = u64 (ledger.totalTrades + fills.length) ∧
      (fills.foldl incoming.record ledger).totalVolume =
        u64 (ledger.totalVolume + (fills.map Prod.snd).sum) := by
  induction fills using List.reverseRecOn with
  | nil => exact ⟨(Nat.mod_eq_of_lt trades).symm, (Nat.mod_eq_of_lt volume).symm⟩
  | append_singleton fills fill ih =>
    rw [List.foldl_concat]
    simp only [record, ih, u64, List.length_append, List.length_singleton, List.map_append,
      List.map_cons, List.map_nil, List.sum_append, List.sum_cons, List.sum_nil]
    omega

end Incoming

namespace MatchingBook

def fills (book : MatchingBook τ) (order : ParsedOrder) : List (LimitOrderEntry τ × Nat) :=
  match Direction.ofSide order.side with
  | none => []
  | some d => (book.outcome d order).fills

def appended (book : MatchingBook τ) (order : ParsedOrder) (tag : τ)
    (tradeCounter timestampNs : Nat) : List (TradeExecution τ) :=
  match Direction.ofSide order.side with
  | none => []
  | some d => (book.incoming d order tag timestampNs).tradesFrom tradeCounter (book.fills order)

section Submit

variable (book : MatchingBook τ) (order : ParsedOrder) (tag : τ)
    (trades : List (TradeExecution τ)) (tradeCounter timestampNs : Nat)

theorem fills_of_side {d : Direction} (side : Direction.ofSide order.side = some d) :
    book.fills order = (book.outcome d order).fills := by
  simp [fills, side]

theorem appended_of_side {d : Direction} (side : Direction.ofSide order.side = some d) :
    book.appended order tag tradeCounter timestampNs =
      (book.incoming d order tag timestampNs).tradesFrom tradeCounter
        (book.outcome d order).fills := by
  simp [appended, fills, side]

theorem length_appended :
    (book.appended order tag tradeCounter timestampNs).length = (book.fills order).length := by
  cases side : Direction.ofSide order.side with
  | none => simp [appended, fills, side]
  | some d =>
    rw [appended_of_side book order tag tradeCounter timestampNs side,
      Incoming.length_tradesFrom, fills_of_side book order side]

theorem map_matchQty_appended :
    (book.appended order tag tradeCounter timestampNs).map TradeExecution.matchQty =
      (book.fills order).map Prod.snd := by
  cases side : Direction.ofSide order.side with
  | none => simp [appended, fills, side]
  | some d =>
    rw [appended_of_side book order tag tradeCounter timestampNs side,
      Incoming.map_matchQty_tradesFrom, fills_of_side book order side]

theorem submitOrder_trades :
    (book.submitOrder order tag trades tradeCounter timestampNs).trades =
      trades ++ book.appended order tag tradeCounter timestampNs := by
  cases side : Direction.ofSide order.side with
  | none =>
    rw [submitOrder_ignored book order tag trades tradeCounter timestampNs side]
    simp [appended, side]
  | some d =>
    rw [submitOrder_eq book order tag trades tradeCounter timestampNs side,
      appended_of_side book order tag tradeCounter timestampNs side]
    exact Incoming.foldl_record_trades _ _ _

theorem submitOrder_totals (tradesLt : book.totalTrades < 2 ^ 64)
    (volumeLt : book.totalVolume < 2 ^ 64) :
    let done := book.submitOrder order tag trades tradeCounter timestampNs
    done.book.totalTrades = u64 (book.totalTrades + (book.fills order).length) ∧
      done.book.totalVolume = u64 (book.totalVolume + ((book.fills order).map Prod.snd).sum) := by
  cases side : Direction.ofSide order.side with
  | none =>
    rw [submitOrder_ignored book order tag trades tradeCounter timestampNs side]
    simp only [fills, side, u64, List.length_nil, List.map_nil, List.sum_nil]
    omega
  | some d =>
    rw [submitOrder_eq book order tag trades tradeCounter timestampNs side,
      fills_of_side book order side]
    exact Incoming.foldl_record_totals (book.incoming d order tag timestampNs) _
      (book.ledger trades tradeCounter) tradesLt volumeLt

theorem submitOrder_tradeCounter (counterLt : tradeCounter < 2 ^ 64) :
    (book.submitOrder order tag trades tradeCounter timestampNs).tradeCounter =
      u64 (tradeCounter + (book.fills order).length) := by
  cases side : Direction.ofSide order.side with
  | none =>
    rw [submitOrder_ignored book order tag trades tradeCounter timestampNs side]
    simp only [fills, side, u64, List.length_nil]
    omega
  | some d =>
    rw [submitOrder_eq book order tag trades tradeCounter timestampNs side,
      fills_of_side book order side]
    exact Incoming.foldl_record_tradeCounter (book.incoming d order tag timestampNs) _
      (book.ledger trades tradeCounter) counterLt

end Submit

end MatchingBook

end HftFixEngine.Matching
