import HftFixEngine.Matching.BookTrades
import HftFixEngine.Matching.PriceTime

set_option autoImplicit false

namespace HftFixEngine.Matching

open Protocol Word Consume SortedInsert

variable {τ : Type}

namespace Direction

def reaches : Direction → Int → Int → Bool
  | .buy, limit, price => price ≤ limit
  | .sell, limit, price => limit ≤ price

theorem not_priceLimitReached (d : Direction) (limit price : Int) :
    (!d.priceLimitReached limit price) = d.reaches limit price := by
  cases d <;> simp [priceLimitReached, reaches, ← decide_not]

end Direction

namespace MatchingBook

structure Ordered (book : MatchingBook τ) : Prop where
  bidsSorted : book.bids.Pairwise fun a b => b.price ≤ a.price
  asksSorted : book.asks.Pairwise fun a b => a.price ≤ b.price
  uncrossed : ∀ bid, bid ∈ book.bids → ∀ ask, ask ∈ book.asks → bid.price < ask.price
  bidsPositive : ∀ bid, bid ∈ book.bids → 0 < bid.remainingQty
  asksPositive : ∀ ask, ask ∈ book.asks → 0 < ask.remainingQty

def eligibleDepth (book : MatchingBook τ) (d : Direction) (limit : Int) : Nat :=
  (((book.opposite d).filter fun entry => d.reaches limit entry.price).map
    LimitOrderEntry.remainingQty).sum

end MatchingBook

structure Hits (incoming : Incoming τ) (entry : LimitOrderEntry τ) (trade : TradeExecution τ) :
    Prop where
  report : trade = incoming.trade trade.tradeId entry trade.matchQty
  price : trade.matchPrice = entry.price
  limit : incoming.direction.reaches incoming.order.price entry.price = true
  positive : 0 < trade.matchQty
  within : trade.matchQty ≤ entry.remainingQty

namespace Incoming

theorem trade_matchPrice (incoming : Incoming τ) (id : Nat) (passive : LimitOrderEntry τ)
    (qty : Nat) : (incoming.trade id passive qty).matchPrice = passive.price := by
  unfold trade
  split <;> rfl

theorem tradesFrom_forall₂ {p : LimitOrderEntry τ × Nat → TradeExecution τ → Prop}
    (incoming : Incoming τ) (tradeCounter : Nat) (fills : List (LimitOrderEntry τ × Nat))
    (each : ∀ fill, fill ∈ fills → ∀ id, p fill (incoming.trade id fill.1 fill.2)) :
    List.Forall₂ p fills (incoming.tradesFrom tradeCounter fills) := by
  have numbered : fills = fills.zipIdx.map Prod.fst := (List.zipIdx_map_fst 0 fills).symm
  rw [tradesFrom]
  nth_rewrite 1 [numbered]
  rw [List.forall₂_map_left_iff, List.forall₂_map_right_iff, List.forall₂_same]
  intro fill member
  exact each fill.1 (List.fst_mem_of_mem_zipIdx member) _

theorem foldl_record_matched (incoming : Incoming τ) (fills : List (LimitOrderEntry τ × Nat))
    (ledger : Ledger τ) :
    (fills.foldl incoming.record ledger).matched = (ledger.matched || !fills.isEmpty) := by
  induction fills using List.reverseRecOn with
  | nil => simp
  | append_singleton fills fill => simp [record]

end Incoming

namespace MatchingBook

section Sweep

variable {book : MatchingBook τ} (ordered : book.Ordered) {order : ParsedOrder} {d : Direction}

include ordered

theorem Ordered.closed (limit : Int) :
    (book.opposite d).Pairwise fun a b =>
      d.priceLimitReached limit a.price = true → d.priceLimitReached limit b.price = true := by
  cases d with
  | buy =>
    refine ordered.asksSorted.imp ?_
    intro a b sorted beyond
    simp only [Direction.priceLimitReached, decide_eq_true_eq] at beyond ⊢
    omega
  | sell =>
    refine ordered.bidsSorted.imp ?_
    intro a b sorted beyond
    simp only [Direction.priceLimitReached, decide_eq_true_eq] at beyond ⊢
    omega

theorem Ordered.precedes_closed (incoming : Incoming τ) (residual : Nat) :
    (book.own d).Pairwise fun a b =>
      LimitOrderEntry.precedes d (incoming.entry residual) a = true →
        LimitOrderEntry.precedes d (incoming.entry residual) b = true := by
  cases d with
  | buy =>
    refine ordered.bidsSorted.imp ?_
    intro a b sorted ahead
    simp only [LimitOrderEntry.precedes, Direction.better, decide_eq_true_eq] at ahead ⊢
    omega
  | sell =>
    refine ordered.asksSorted.imp ?_
    intro a b sorted ahead
    simp only [LimitOrderEntry.precedes, Direction.better, decide_eq_true_eq] at ahead ⊢
    omega

theorem Ordered.opposite_positive :
    ∀ entry, entry ∈ book.opposite d → 0 < entry.remainingQty := by
  cases d with
  | buy => exact ordered.asksPositive
  | sell => exact ordered.bidsPositive

theorem Ordered.total :
    ((book.outcome d order).fills.map Prod.snd).sum =
      min (toUint32 order.quantity) (book.eligibleDepth d order.price) := by
  rw [outcome, consume_total, eligible_eq_filter _ (ordered.closed order.price)]
  simp only [Direction.not_priceLimitReached]
  rfl

theorem Ordered.hits (tag : τ) (tradeCounter timestampNs : Nat) :
    List.Forall₂ (Hits (book.incoming d order tag timestampNs))
      ((book.outcome d order).fills.map Prod.fst)
      ((book.incoming d order tag timestampNs).tradesFrom tradeCounter
        (book.outcome d order).fills) := by
  rw [List.forall₂_map_left_iff]
  apply Incoming.tradesFrom_forall₂
  intro fill member id
  obtain ⟨-, accepted, most⟩ := mem_of_mem_fills _ _ fill member
  have positive := fills_positive _ _ ordered.opposite_positive fill member
  refine ⟨?_, Incoming.trade_matchPrice _ _ _ _, ?_, ?_, ?_⟩
  next => rw [Incoming.trade_tradeId, Incoming.trade_matchQty]
  next =>
    rw [← Direction.not_priceLimitReached]
    exact congrArg (!·) accepted
  next =>
    rw [Incoming.trade_matchQty]
    exact positive
  next =>
    rw [Incoming.trade_matchQty]
    exact most

end Sweep

theorem submitOrder_matched (book : MatchingBook τ) (order : ParsedOrder) (tag : τ)
    (trades : List (TradeExecution τ)) (tradeCounter timestampNs : Nat) :
    (book.submitOrder order tag trades tradeCounter timestampNs).matched = true ↔
      book.appended order tag tradeCounter timestampNs ≠ [] := by
  rw [← List.length_pos_iff, length_appended]
  cases side : Direction.ofSide order.side with
  | none => simp [submitOrder_ignored book order tag trades tradeCounter timestampNs side, fills, side]
  | some d =>
    rw [submitOrder_eq book order tag trades tradeCounter timestampNs side,
      fills_of_side book order side, List.length_pos_iff]
    simp [Incoming.foldl_record_matched, ledger]

-- The sweep takes the entries in front whole; at most the last one it hits is left, reduced.
inductive FrontTaken : List (LimitOrderEntry τ) → List Nat → List (LimitOrderEntry τ) →
    List (LimitOrderEntry τ) → Prop
  | whole (hit after : List (LimitOrderEntry τ)) :
    FrontTaken hit (hit.map LimitOrderEntry.remainingQty) (hit ++ after) after
  | reduced (hit : List (LimitOrderEntry τ)) (last : LimitOrderEntry τ)
      (after : List (LimitOrderEntry τ)) (qty : Nat) (some : 0 < qty) (left : qty < last.remainingQty) :
    FrontTaken (hit ++ [last]) (hit.map LimitOrderEntry.remainingQty ++ [qty])
      (hit ++ last :: after) ({ last with remainingQty := last.remainingQty - qty } :: after)

theorem outcome_frontTaken (book : MatchingBook τ) (d : Direction) (order : ParsedOrder) :
    FrontTaken ((book.outcome d order).fills.map Prod.fst)
      ((book.outcome d order).fills.map Prod.snd) (book.opposite d) (book.outcome d order).rest := by
  have whole (hit : List (LimitOrderEntry τ)) :
      (hit.map fun entry => (entry, entrySupply.qty entry)).map Prod.fst = hit ∧
        (hit.map fun entry => (entry, entrySupply.qty entry)).map Prod.snd =
          hit.map LimitOrderEntry.remainingQty := by
    simp [List.map_map, Function.comp_def, entrySupply]
  rcases @consume_split _ entrySupply
      (fun passive => d.priceLimitReached order.price passive.price) (toUint32 order.quantity)
      (book.opposite d) with
    ⟨hit, after, queue, fills, rest⟩ | ⟨hit, last, after, qty, queue, some, left, fills, rest⟩
  next =>
    rw [outcome, fills, rest, queue, (whole hit).1, (whole hit).2]
    exact FrontTaken.whole hit after
  next =>
    rw [outcome, fills, rest, queue, List.map_append, List.map_append, (whole hit).1, (whole hit).2]
    exact FrontTaken.reduced hit last after qty some left

-- The residual stands behind every entry of equal or better price and in front of the rest.
def RestsBehind (d : Direction) (entry : LimitOrderEntry τ) (own after : List (LimitOrderEntry τ)) :
    Prop :=
  ∃ ahead behind, own = ahead ++ behind ∧ after = ahead ++ entry :: behind ∧
    (∀ old, old ∈ ahead → d.better entry.price old.price = false) ∧
    ∀ old, old ∈ behind → d.better entry.price old.price = true

theorem submitOrder_sweeps (book : MatchingBook τ) (ordered : book.Ordered) (order : ParsedOrder)
    (d : Direction) (side : order.side = d.code) (tag : τ) (trades : List (TradeExecution τ))
    (tradeCounter timestampNs : Nat) :
    let incoming := book.incoming d order tag timestampNs
    let done := book.submitOrder order tag trades tradeCounter timestampNs
    let traded := min (toUint32 order.quantity) (book.eligibleDepth d order.price)
    let residual := toUint32 order.quantity - traded
    ∃ hit made,
      done.trades = trades ++ made ∧
      List.Forall₂ (Hits incoming) hit made ∧
      FrontTaken hit (made.map TradeExecution.matchQty) (book.opposite d) (done.book.opposite d) ∧
      (made.map TradeExecution.matchQty).sum = traded ∧
      (residual = 0 → done.book.own d = book.own d) ∧
      (0 < residual → RestsBehind d (incoming.entry residual) (book.own d) (done.book.own d)) ∧
      (done.matched = true ↔ made ≠ []) := by
  intro incoming done traded residual
  have known : Direction.ofSide order.side = some d := Direction.ofSide_eq_some.mpr side
  have total : ((book.outcome d order).fills.map Prod.snd).sum = traded := ordered.total
  have unmet : (book.outcome d order).unmet = residual := by
    have conserved := book.outcome_conserves d order
    omega
  have made := appended_of_side book order tag tradeCounter timestampNs known
  have qtys : (book.appended order tag tradeCounter timestampNs).map TradeExecution.matchQty =
      (book.outcome d order).fills.map Prod.snd := by
    rw [map_matchQty_appended, fills_of_side book order known]
  have own : done.book.own d = restResidual d incoming (book.outcome d order).unmet (book.own d) :=
    submitOrder_own tag trades tradeCounter timestampNs known
  refine ⟨(book.outcome d order).fills.map Prod.fst,
    book.appended order tag tradeCounter timestampNs, submitOrder_trades .., ?_, ?_, ?_, ?_, ?_,
    submitOrder_matched ..⟩
  next =>
    rw [made]
    exact ordered.hits tag tradeCounter timestampNs
  next =>
    rw [qtys, submitOrder_opposite tag trades tradeCounter timestampNs known]
    exact book.outcome_frontTaken d order
  next => rw [qtys, total]
  next =>
    intro none
    rw [own, restResidual, if_neg (by omega)]
  next =>
    intro some
    obtain ⟨ahead, behind, parts, inserted, before, after⟩ := insertUpper_split
      (incoming.entry residual) (book.own d) (ordered.precedes_closed incoming residual)
    refine ⟨ahead, behind, parts, ?_, before, after⟩
    rw [own, unmet, restResidual, if_pos some]
    exact inserted

def threeAsks : MatchingBook Nat :=
  let ask (price : Int) (remainingQty tag : Nat) : LimitOrderEntry Nat :=
    { clOrdId := [], side := 2, price, remainingQty, seqNum := 0, tag }
  { symbol := [], asks := [ask 10 5 0, ask 11 4 1, ask 12 3 2] }

theorem submitOrder_sweeps_threeAsks :
    threeAsks.Ordered ∧
      let order : ParsedOrder := { side := 1, price := 11, quantity := 7 }
      let done := threeAsks.submitOrder order 3 [] 0 0
      ∃ hit made, done.trades = [] ++ made ∧
        FrontTaken hit (made.map TradeExecution.matchQty) threeAsks.asks done.book.asks ∧
        (made.map TradeExecution.matchQty).sum = 7 ∧ done.book.bids = [] := by
  have ordered : threeAsks.Ordered :=
    ⟨by decide, by decide, by decide, by decide, by decide⟩
  obtain ⟨hit, made, trades, -, taken, total, own, -⟩ := submitOrder_sweeps threeAsks ordered
    { side := 1, price := 11, quantity := 7 } .buy rfl 3 [] 0 0
  exact ⟨ordered, hit, made, trades, taken, total, own rfl⟩

end MatchingBook

end HftFixEngine.Matching
