import HftFixEngine.Matching.MatchingSpec
import Mathlib.Data.List.Induction

set_option autoImplicit false

namespace HftFixEngine.Matching

open Protocol Word Consume SortedInsert

namespace MatchingBook

variable {τ : Type}

theorem opposite_eq_own (book : MatchingBook τ) (d : Direction) :
    book.opposite d = book.own d.flip := by
  cases d <;> rfl

theorem submitOrder_forall_sides {p : Direction → List (LimitOrderEntry τ) → Prop}
    {book : MatchingBook τ} {order : ParsedOrder} (tag : τ) (trades : List (TradeExecution τ))
    (tradeCounter timestampNs : Nat) (ignored : ∀ d, p d (book.own d))
    (rested : ∀ d, Direction.ofSide order.side = some d →
      p d (restResidual d (book.incoming d order tag timestampNs) (book.outcome d order).unmet
        (book.own d)))
    (swept : ∀ d, Direction.ofSide order.side = some d → p d.flip (book.outcome d order).rest)
    (d : Direction) :
    p d ((book.submitOrder order tag trades tradeCounter timestampNs).book.own d) := by
  cases side : Direction.ofSide order.side with
  | none =>
      rw [submitOrder_ignored book order tag trades tradeCounter timestampNs side]
      exact ignored d
  | some e =>
      rcases e.eq_or_eq_flip d with rfl | rfl
      next =>
        rw [submitOrder_own tag trades tradeCounter timestampNs side]
        exact rested d side
      next =>
        rw [← opposite_eq_own, submitOrder_opposite tag trades tradeCounter timestampNs side]
        exact swept e side

end MatchingBook

def Earlier (d : Direction) (a b : LimitOrderEntry Nat) : Prop :=
  d.better a.price b.price = true ∨ a.price = b.price ∧ a.tag < b.tag

def FromOrder (orders : List ParsedOrder) (d : Direction) (entry : LimitOrderEntry Nat) : Prop :=
  ∃ order, orders[entry.tag]? = some order ∧ order.side = d.code ∧
    entry.clOrdId = order.clOrdId ∧ entry.side = order.side ∧ entry.price = order.price ∧
    entry.seqNum = order.seqNum ∧ 0 < entry.remainingQty ∧
    entry.remainingQty ≤ toUint32 order.quantity

structure PriceTime (orders : List ParsedOrder) (book : MatchingBook Nat) : Prop where
  earlier : ∀ d, (book.own d).Pairwise (Earlier d)
  fromOrder : ∀ d, ∀ entry ∈ book.own d, FromOrder orders d entry
  uncrossed : ∀ bid ∈ book.bids, ∀ ask ∈ book.asks, bid.price < ask.price

theorem FromOrder.tag_lt {orders : List ParsedOrder} {d : Direction} {entry : LimitOrderEntry Nat}
    (origin : FromOrder orders d entry) : entry.tag < orders.length := by
  obtain ⟨order, found, _⟩ := origin
  exact (List.getElem?_eq_some_iff.mp found).1

theorem FromOrder.append {orders : List ParsedOrder} {d : Direction} {entry : LimitOrderEntry Nat}
    (origin : FromOrder orders d entry) (order : ParsedOrder) :
    FromOrder (orders ++ [order]) d entry := by
  have within := origin.tag_lt
  obtain ⟨source, found, rest⟩ := origin
  exact ⟨source, by rw [List.getElem?_append_left within]; exact found, rest⟩

theorem FromOrder.reduce {orders : List ParsedOrder} {d : Direction} {entry : LimitOrderEntry Nat}
    (origin : FromOrder orders d entry) {n : Nat} (left : n < entry.remainingQty) :
    FromOrder orders d (entrySupply.reduce entry n) := by
  obtain ⟨order, found, code, id, side, price, seq, _, most⟩ := origin
  refine ⟨order, found, code, id, side, price, seq, ?_, ?_⟩ <;>
    (simp only [entrySupply]; omega)

namespace PriceTime

variable {orders : List ParsedOrder} {book : MatchingBook Nat} (inv : PriceTime orders book)
    {order : ParsedOrder} {d : Direction} (side : Direction.ofSide order.side = some d)

include inv

theorem residual_fromOrder (timestampNs : Nat) (side : Direction.ofSide order.side = some d) :
    ∀ entry ∈ MatchingBook.restResidual d (book.incoming d order orders.length timestampNs)
        (book.outcome d order).unmet (book.own d), FromOrder (orders ++ [order]) d entry := by
  intro entry member
  unfold MatchingBook.restResidual at member
  split_ifs at member with residual
  next =>
    rcases mem_insertUpper.mp member with rfl | old
    next =>
      have most := book.outcome_conserves d order
      refine ⟨order, by simp [Incoming.entry, MatchingBook.incoming],
        Direction.ofSide_eq_some.mp side, rfl, rfl, rfl, rfl, residual, ?_⟩
      simp only [Incoming.entry]
      omega
    next => exact (inv.fromOrder d entry old).append order
  next => exact (inv.fromOrder d entry member).append order

theorem residual_earlier (timestampNs : Nat) :
    (MatchingBook.restResidual d (book.incoming d order orders.length timestampNs)
      (book.outcome d order).unmet (book.own d)).Pairwise (Earlier d) := by
  unfold MatchingBook.restResidual
  split_ifs
  next =>
    apply pairwise_insertUpper _ _ (inv.earlier d)
    next =>
      intro old member behind
      change d.better order.price old.price = false at behind
      have recent := (inv.fromOrder d old member).tag_lt
      rcases d.better_or_eq_or_better old.price order.price with better | same | worse
      next => exact Or.inl better
      next => exact Or.inr ⟨same, recent⟩
      next => simp [worse] at behind
    next =>
      intro old _ ahead
      exact Or.inl ahead
    next =>
      intro old later before ahead
      rcases before with better | ⟨same, _⟩
      next => exact Or.inl (Direction.better_trans ahead better)
      next => exact Or.inl (same ▸ ahead)
  next => exact inv.earlier d

theorem rest_earlier :
    (book.outcome d order).rest.Pairwise (Earlier d.flip) := by
  have start : (book.opposite d).Pairwise (Earlier d.flip) := by
    rw [MatchingBook.opposite_eq_own]
    exact inv.earlier d.flip
  exact pairwise_rest _ _ start (fun entry n other before => before)

theorem rest_fromOrder :
    ∀ entry ∈ (book.outcome d order).rest, FromOrder orders d.flip entry := by
  have start : ∀ entry ∈ book.opposite d, FromOrder orders d.flip entry := by
    rw [MatchingBook.opposite_eq_own]
    exact inv.fromOrder d.flip
  exact forall_mem_rest (p := FromOrder orders d.flip) _ _ start
    (fun entry n origin left => origin.reduce left)

-- A residual stays only when the sweep ran to its break, and then every entry left on the
-- other side is beyond the limit, the first being the best.
theorem rest_beyond_limit (residual : (book.outcome d order).unmet ≠ 0) :
    ∀ entry ∈ (book.outcome d order).rest,
      d.priceLimitReached order.price entry.price = true := by
  have stopped := consume_exit (toUint32 order.quantity) (book.opposite d) residual
  have sorted : (book.outcome d order).rest.Pairwise (Earlier d.flip) := inv.rest_earlier
  refine Direction.beyond_of_sorted LimitOrderEntry.price _ (sorted.imp ?_) stopped
  intro a b before
  rcases before with better | ⟨same, _⟩
  next => exact Direction.better_asymm better
  next => rw [same, Direction.better_irrefl]

end PriceTime

theorem uncrossed_iff (d : Direction) (book : MatchingBook Nat) :
    (∀ bid ∈ book.bids, ∀ ask ∈ book.asks, bid.price < ask.price) ↔
      ∀ mine ∈ book.own d, ∀ other ∈ book.opposite d,
        d.priceLimitReached mine.price other.price = true := by
  cases d with
  | buy => simp [MatchingBook.own, MatchingBook.opposite, Direction.priceLimitReached]
  | sell =>
      simp only [MatchingBook.own, MatchingBook.opposite, Direction.priceLimitReached,
        decide_eq_true_eq]
      exact ⟨fun apart ask member bid other => apart bid other ask member,
        fun apart bid member ask other => apart ask other bid member⟩

namespace PriceTime

theorem rest_uncrossed {orders : List ParsedOrder} {book : MatchingBook Nat}
    (inv : PriceTime orders book) (order : ParsedOrder) (d : Direction) :
    ∀ mine ∈ book.own d, ∀ other ∈ (book.outcome d order).rest,
      d.priceLimitReached mine.price other.price = true := by
  intro mine member
  have start := (uncrossed_iff d book).mp inv.uncrossed mine member
  exact forall_mem_rest (p := fun other : LimitOrderEntry Nat =>
    d.priceLimitReached mine.price other.price = true) _ _ start (fun entry n beyond left => beyond)

theorem submitOrder {orders : List ParsedOrder} {book : MatchingBook Nat}
    (inv : PriceTime orders book) (order : ParsedOrder) (trades : List (TradeExecution Nat))
    (tradeCounter timestampNs : Nat) :
    PriceTime (orders ++ [order])
      (book.submitOrder order orders.length trades tradeCounter timestampNs).book where
  earlier :=
    MatchingBook.submitOrder_forall_sides (p := fun d side => side.Pairwise (Earlier d)) _ _ _ _
      inv.earlier (fun d _ => inv.residual_earlier timestampNs) (fun d _ => inv.rest_earlier)
  fromOrder :=
    MatchingBook.submitOrder_forall_sides
      (p := fun d side => ∀ entry ∈ side, FromOrder (orders ++ [order]) d entry) _ _ _ _
      (fun d entry member => (inv.fromOrder d entry member).append order)
      (fun d side => inv.residual_fromOrder timestampNs side)
      (fun d _ entry member => (inv.rest_fromOrder entry member).append order)
  uncrossed := by
    cases side : Direction.ofSide order.side with
    | none =>
        rw [MatchingBook.submitOrder_ignored book order _ trades tradeCounter timestampNs side]
        exact inv.uncrossed
    | some d =>
        rw [uncrossed_iff d, MatchingBook.submitOrder_own _ trades tradeCounter timestampNs side,
          MatchingBook.submitOrder_opposite _ trades tradeCounter timestampNs side]
        unfold MatchingBook.restResidual
        split_ifs with residual
        next =>
          intro mine member
          rcases mem_insertUpper.mp member with rfl | old
          next => exact inv.rest_beyond_limit (by omega)
          next => exact inv.rest_uncrossed order d mine old
        next => exact inv.rest_uncrossed order d

end PriceTime

structure Call (τ : Type) where
  order : ParsedOrder
  trades : List (TradeExecution τ)
  tradeCounter : Nat
  timestampNs : Nat

def Call.onBook {τ : Type} (call : Call τ) (tag : τ) (book : MatchingBook τ) : MatchingBook τ :=
  (book.submitOrder call.order tag call.trades call.tradeCounter call.timestampNs).book

def bookAfter (symbol : Bytes) (calls : List (Call Nat)) : MatchingBook Nat :=
  calls.zipIdx.foldl (fun book numbered => numbered.1.onBook numbered.2 book) { symbol }

theorem bookAfter_append (symbol : Bytes) (calls : List (Call Nat)) (call : Call Nat) :
    bookAfter symbol (calls ++ [call]) = call.onBook calls.length (bookAfter symbol calls) := by
  simp [bookAfter, List.zipIdx_append]

theorem priceTime_bookAfter (symbol : Bytes) (calls : List (Call Nat)) :
    PriceTime (calls.map Call.order) (bookAfter symbol calls) := by
  induction calls using List.reverseRecOn with
  | nil =>
      refine ⟨?_, ?_, by simp [bookAfter]⟩ <;>
        (intro d; cases d <;> simp [bookAfter, MatchingBook.own])
  | append_singleton calls call ih =>
      rw [bookAfter_append, List.map_append]
      have next := ih.submitOrder call.order call.trades call.tradeCounter call.timestampNs
      rw [List.length_map] at next
      exact next

theorem submitOrder_run_priceTime (symbol : Bytes) (calls : List (Call Nat)) :
    let book := bookAfter symbol calls
    book.bids.Pairwise (fun a b => b.price ≤ a.price) ∧
    book.asks.Pairwise (fun a b => a.price ≤ b.price) ∧
    (∀ d, (book.own d).Pairwise fun a b => a.price = b.price → a.tag < b.tag) ∧
    (∀ d, ∀ entry ∈ book.own d, 0 < entry.remainingQty ∧ entry.side = d.code ∧
      FromOrder (calls.map Call.order) d entry) ∧
    (∀ bid ∈ book.bids.head?, ∀ ask ∈ book.asks.head?, bid.price < ask.price) := by
  have inv := priceTime_bookAfter symbol calls
  refine ⟨(inv.earlier .buy).imp ?_, (inv.earlier .sell).imp ?_, ?_, ?_, ?_⟩
  next =>
    intro a b before
    simp only [Earlier, Direction.better, decide_eq_true_eq] at before
    omega
  next =>
    intro a b before
    simp only [Earlier, Direction.better, decide_eq_true_eq] at before
    omega
  next =>
    intro d
    refine (inv.earlier d).imp ?_
    intro a b before same
    rcases before with better | ⟨_, earlier⟩
    next => simp [same, Direction.better_irrefl] at better
    next => exact earlier
  next =>
    intro d entry member
    obtain ⟨order, _, code, _, side, _, _, positive, _⟩ := inv.fromOrder d entry member
    exact ⟨positive, side.trans code, inv.fromOrder d entry member⟩
  next =>
    intro bid first ask best
    exact inv.uncrossed bid (List.mem_of_mem_head? first) ask (List.mem_of_mem_head? best)

end HftFixEngine.Matching
