import HftFixEngine.Matching.MatchingEngine

set_option autoImplicit false

namespace HftFixEngine.Matching

open Protocol Word Consume SortedInsert

variable {τ : Type}

def entrySupply : Supply (LimitOrderEntry τ) where
  qty := LimitOrderEntry.remainingQty
  reduce := fun entry n => { entry with remainingQty := entry.remainingQty - n }
  qty_reduce := fun _ _ => rfl

namespace Incoming

theorem run_eq_consume (incoming : Incoming τ) (passive : List (LimitOrderEntry τ))
    (need fuel : Nat) (ledger : Ledger τ) (enough : passive.length ≤ fuel) :
    Loop.run incoming.goesOn incoming.matchFront fuel ⟨passive, need, ledger⟩ =
      let outcome := consume entrySupply incoming.refused need passive
      ⟨outcome.rest, outcome.unmet, outcome.fills.foldl incoming.record ledger⟩ := by
  induction passive generalizing need fuel ledger with
  | nil =>
      rw [Loop.run_of_stopped fuel rfl]
      simp
  | cons best rest ih =>
      by_cases stops : 0 < need ∧ incoming.refused best = false
      next =>
        obtain ⟨wanted, accepted⟩ := stops
        obtain ⟨fuel, rfl⟩ : ∃ more, fuel = more + 1 :=
          ⟨fuel - 1, by simp only [List.length_cons] at enough; omega⟩
        have going : incoming.goesOn ⟨best :: rest, need, ledger⟩ = true := by
          simp [goesOn, wanted, accepted]
        rw [Loop.run_of_going fuel going]
        by_cases exhausted : best.remainingQty ≤ need
        next =>
          have front : incoming.matchFront ⟨best :: rest, need, ledger⟩ =
              ⟨rest, need - best.remainingQty,
                incoming.record ledger (best, best.remainingQty)⟩ := by
            simp [matchFront, Nat.min_eq_right exhausted]
          rw [front, ih _ fuel _ (by simpa using enough),
            consume_all need best rest wanted accepted exhausted]
          rfl
        next =>
          have left : need < best.remainingQty := by omega
          have front : incoming.matchFront ⟨best :: rest, need, ledger⟩ =
              ⟨entrySupply.reduce best need :: rest, 0,
                incoming.record ledger (best, need)⟩ := by
            have more : best.remainingQty - need ≠ 0 := by omega
            simp [matchFront, Nat.min_eq_left (Nat.le_of_lt left), more, entrySupply]
          -- The order is exhausted, so the next test of the guard ends the loop.
          rw [front, Loop.run_of_stopped fuel (by simp [goesOn]),
            consume_part need best rest wanted accepted left]
          rfl
      next =>
        have stopped : incoming.goesOn ⟨best :: rest, need, ledger⟩ = false := by
          cases refusal : incoming.refused best <;> simp_all [goesOn]
        rw [Loop.run_of_stopped fuel stopped]
        have ended : need = 0 ∨ incoming.refused best = true := by
          cases refusal : incoming.refused best <;> simp_all
        simp [consume, ended]

theorem sweep_eq_consume (incoming : Incoming τ) (state : MatchState τ) :
    incoming.sweep state =
      let outcome := consume entrySupply incoming.refused state.remainingQty state.passive
      ⟨outcome.rest, outcome.unmet, outcome.fills.foldl incoming.record state.ledger⟩ :=
  run_eq_consume incoming state.passive state.remainingQty _ state.ledger (Nat.le_refl _)

end Incoming

namespace MatchingBook

def incoming (book : MatchingBook τ) (d : Direction) (order : ParsedOrder) (tag : τ)
    (timestampNs : Nat) : Incoming τ :=
  { direction := d, order, tag, symbol := book.symbol, timestampNs }

def ledger (book : MatchingBook τ) (trades : List (TradeExecution τ)) (tradeCounter : Nat) :
    Ledger τ :=
  { trades, tradeCounter, totalTrades := book.totalTrades, totalVolume := book.totalVolume
    matched := false }

def outcome (book : MatchingBook τ) (d : Direction) (order : ParsedOrder) :
    Outcome (LimitOrderEntry τ) :=
  consume entrySupply (fun passive => d.priceLimitReached order.price passive.price)
    (toUint32 order.quantity) (book.opposite d)

theorem outcome_conserves (book : MatchingBook τ) (d : Direction) (order : ParsedOrder) :
    ((book.outcome d order).fills.map Prod.snd).sum + (book.outcome d order).unmet =
      toUint32 order.quantity :=
  consume_conserves _ _ _ _

def restResidual (d : Direction) (incoming : Incoming τ) (residual : Nat)
    (own : List (LimitOrderEntry τ)) : List (LimitOrderEntry τ) :=
  if 0 < residual then
    insertUpper (LimitOrderEntry.precedes d) (incoming.entry residual) own
  else own

section Submit

variable (book : MatchingBook τ) (order : ParsedOrder) (tag : τ)
    (trades : List (TradeExecution τ)) (tradeCounter timestampNs : Nat)

theorem submitOrder_ignored (other : Direction.ofSide order.side = none) :
    book.submitOrder order tag trades tradeCounter timestampNs =
      { matched := false, book, trades, tradeCounter } := by
  simp [submitOrder, other]

theorem submitOrder_eq {d : Direction} (side : Direction.ofSide order.side = some d) :
    book.submitOrder order tag trades tradeCounter timestampNs =
      let outcome := book.outcome d order
      let incoming := book.incoming d order tag timestampNs
      let ledger := outcome.fills.foldl incoming.record (book.ledger trades tradeCounter)
      { matched := ledger.matched
        book :=
          { book.setSides (restResidual d incoming outcome.unmet (book.own d)) outcome.rest d with
            totalTrades := ledger.totalTrades, totalVolume := ledger.totalVolume }
        trades := ledger.trades
        tradeCounter := ledger.tradeCounter } := by
  simp only [submitOrder, side, Incoming.sweep_eq_consume]
  rfl

variable {book order} {d : Direction} (side : Direction.ofSide order.side = some d)

include side

theorem submitOrder_own :
    (book.submitOrder order tag trades tradeCounter timestampNs).book.own d =
      restResidual d (book.incoming d order tag timestampNs) (book.outcome d order).unmet
        (book.own d) := by
  rw [submitOrder_eq book order tag trades tradeCounter timestampNs side]
  cases d <;> rfl

theorem submitOrder_opposite :
    (book.submitOrder order tag trades tradeCounter timestampNs).book.opposite d =
      (book.outcome d order).rest := by
  rw [submitOrder_eq book order tag trades tradeCounter timestampNs side]
  cases d <;> rfl

end Submit

end MatchingBook

end HftFixEngine.Matching
