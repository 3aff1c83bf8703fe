import HftFixEngine.Matching.MatchingSpec
import HftFixEngine.Matching.ZeroAllocReport
import Mathlib.Data.List.TakeWhile

set_option autoImplicit false

namespace HftFixEngine.Matching

open Protocol Word Consume SortedInsert

variable {τ : Type}

def BookOrder.abs (order : BookOrder τ) : LimitOrderEntry τ :=
  { clOrdId := cString order.clOrdId, side := order.side, price := order.price
    remainingQty := order.remainingQty, seqNum := order.orderId, tag := order.tag }

def ZeroAllocHftOrderBook.abs (book : ZeroAllocHftOrderBook τ) : MatchingBook τ :=
  { symbol := cString book.symbol
    bids := book.bid.orders.map BookOrder.abs
    asks := book.ask.orders.map BookOrder.abs
    totalTrades := book.totalTrades
    totalVolume := book.totalVolume }

structure Fill where
  passiveId : Bytes
  aggressorId : Bytes
  price : Int
  qty : Nat
  deriving DecidableEq, Repr

def TradeExecution.fill (aggressorSide : Int) (trade : TradeExecution τ) : Fill :=
  if aggressorSide = 1 then
    { passiveId := trade.sellClOrdId, aggressorId := trade.buyClOrdId
      price := trade.matchPrice, qty := trade.matchQty }
  else
    { passiveId := trade.buyClOrdId, aggressorId := trade.sellClOrdId
      price := trade.matchPrice, qty := trade.matchQty }

def ZeroAllocTrade.fill (aggressorSide : Int) (trade : ZeroAllocTrade) : Fill :=
  if aggressorSide = 1 then
    { passiveId := cString trade.sellClOrdId, aggressorId := cString trade.buyClOrdId
      price := trade.matchPrice, qty := trade.matchQty }
  else
    { passiveId := cString trade.buyClOrdId, aggressorId := cString trade.sellClOrdId
      price := trade.matchPrice, qty := trade.matchQty }

def fillAgainst (order : ParsedOrder) (fill : BookOrder τ × Nat) : Fill :=
  { passiveId := cString fill.1.clOrdId, aggressorId := order.clOrdId
    price := fill.1.price, qty := fill.2 }

section Abs

variable (book : ZeroAllocHftOrderBook τ) (d : Direction)

theorem abs_own : book.abs.own d = (book.own d).orders.map BookOrder.abs := by
  cases d <;> rfl

theorem abs_opposite : book.abs.opposite d = (book.opposite d).orders.map BookOrder.abs := by
  cases d <;> rfl

theorem abs_setSides (own opposite : LevelStore τ) (totalTrades totalVolume : Nat) :
    ZeroAllocHftOrderBook.abs
        { book.setSides own opposite d with totalTrades, totalVolume } =
      { book.abs.setSides (own.orders.map BookOrder.abs) (opposite.orders.map BookOrder.abs) d with
        totalTrades, totalVolume } := by
  cases d <;> rfl

theorem abs_outcome (order : ParsedOrder) :
    book.abs.outcome d order = (book.outcome d order).map BookOrder.abs := by
  rw [MatchingBook.outcome, abs_opposite]
  exact consume_map BookOrder.abs (fun _ => rfl) (fun _ _ => rfl) (fun _ => rfl) _ _

end Abs

section Ids

variable {view : Bytes}

theorem cString_of_noNul (noNul : 0 ∉ view) : cString view = view := by
  rw [cString, List.takeWhile_eq_self_iff]
  intro byte member
  have other : byte ≠ 0 := fun zero => noNul (zero ▸ member)
  simpa using other

theorem cString_copySvToChar_eq (dest : Bytes) {maxLen : Nat} (short : view.length ≤ maxLen)
    (noNul : 0 ∉ view) : cString (copySvToChar dest view maxLen) = view := by
  rw [cString_copySvToChar, Nat.min_eq_left short, List.take_length, cString_of_noNul noNul]

theorem take_strnlen (src : Bytes) (maxLen : Nat) :
    src.take (strnlen src maxLen) = (cString src).take maxLen := by
  have inside : (src.take maxLen).takeWhile (· ≠ 0) <+: src :=
    (List.takeWhile_prefix _).trans (List.take_prefix _ _)
  rw [strnlen, ← List.prefix_iff_eq_take.mp inside, ← List.take_takeWhile]
  rfl

theorem cString_copyCharToChar (dest : Bytes) {src : Bytes} {maxLen : Nat}
    (short : (cString src).length ≤ maxLen) :
    cString (copyCharToChar dest src maxLen) = cString src := by
  rw [copyCharToChar, cString_append_nul, take_strnlen, List.take_of_length_le short]
  exact List.takeWhile_idem

end Ids

theorem fill_writeTrade (aggressor : Aggressor τ) {passive : BookOrder τ}
    (side : Direction.ofSide aggressor.order.side = some aggressor.direction)
    (short : aggressor.order.clOrdId.length < maxClOrdIdLen)
    (noNul : 0 ∉ aggressor.order.clOrdId)
    (resting : (cString passive.clOrdId).length < maxClOrdIdLen) (old : ZeroAllocTrade)
    (id qty : Nat) :
    (aggressor.writeTrade old id passive qty).fill aggressor.order.side =
      fillAgainst aggressor.order (passive, qty) := by
  have code := Direction.ofSide_eq_some.mp side
  have own := fun dest => cString_copySvToChar_eq dest (Nat.le_pred_of_lt short) noNul
  have other := fun dest => cString_copyCharToChar dest (Nat.le_pred_of_lt resting)
  cases direction : aggressor.direction <;> rw [direction] at code <;>
    simp [ZeroAllocTrade.fill, code, Direction.code, Aggressor.writeTrade, direction, fillAgainst]
  next => exact ⟨other _, own _⟩
  next => exact ⟨other _, own _⟩

theorem foldl_record_trades (incoming : Incoming τ)
    (side : Direction.ofSide incoming.order.side = some incoming.direction)
    (fills : List (LimitOrderEntry τ × Nat)) (ledger : Ledger τ) :
    (fills.foldl incoming.record ledger).trades.map (TradeExecution.fill incoming.order.side) =
      ledger.trades.map (TradeExecution.fill incoming.order.side) ++
        fills.map fun fill =>
          { passiveId := fill.1.clOrdId, aggressorId := incoming.order.clOrdId
            price := fill.1.price, qty := fill.2 } := by
  have code := Direction.ofSide_eq_some.mp side
  have traded : ∀ id passive qty, (incoming.trade id passive qty).fill incoming.order.side =
      { passiveId := passive.clOrdId, aggressorId := incoming.order.clOrdId
        price := passive.price, qty } := by
    intro id passive qty
    cases direction : incoming.direction <;> rw [direction] at code <;>
      simp [TradeExecution.fill, code, Direction.code, Incoming.trade, direction]
  induction fills generalizing ledger with
  | nil => simp
  | cons fill fills ih => simp [ih, Incoming.record, traded]

theorem foldl_record_totals (aggressor : Aggressor τ) (incoming : Incoming τ)
    (fills : List (BookOrder τ × Nat)) (exec : Execution τ) (ledger : Ledger τ)
    (trades : exec.totalTrades = ledger.totalTrades)
    (volume : exec.totalVolume = ledger.totalVolume) :
    let absFills := fills.map (Prod.map BookOrder.abs id)
    (fills.foldl aggressor.record exec).totalTrades =
        (absFills.foldl incoming.record ledger).totalTrades ∧
      (fills.foldl aggressor.record exec).totalVolume =
        (absFills.foldl incoming.record ledger).totalVolume := by
  induction fills generalizing exec ledger with
  | nil => exact ⟨trades, volume⟩
  | cons fill fills ih =>
      refine ih _ _ ?_ ?_
      next => simp [Aggressor.record, Incoming.record, trades]
      next => simp [Aggressor.record, Incoming.record, volume]

theorem abs_restOn {d : Direction} {order : ParsedOrder} {store : LevelStore τ}
    (ok : StoreOk d store) (side : order.side = d.code)
    (short : order.clOrdId.length < maxClOrdIdLen) (noNul : 0 ∉ order.clOrdId)
    {incoming : Incoming τ} {tag : τ} (sameOrder : incoming.order = order)
    (sameTag : incoming.tag = tag) (residual timestampNs : Nat) :
    (restOn d order residual timestampNs tag store).orders.map BookOrder.abs =
      if store.noRoom order.price then store.orders.map BookOrder.abs
      else MatchingBook.restResidual d incoming residual (store.orders.map BookOrder.abs) := by
  split_ifs with full
  next => rw [restOn_dropped timestampNs tag ok side (Or.inr full)]
  next =>
    by_cases met : residual = 0
    next =>
      rw [restOn_dropped timestampNs tag ok side (Or.inl met)]
      simp [MatchingBook.restResidual, met]
    next =>
      have positive : 0 < residual := Nat.pos_of_ne_zero met
      obtain ⟨chars, orders, -⟩ := restOn_rested timestampNs tag ok side positive
        (by simpa using full)
      have entry : (residualNode order residual timestampNs tag chars).abs =
          incoming.entry residual := by
        have id := cString_copySvToChar_eq chars (Nat.le_pred_of_lt short) noNul
        simp only [residualNode, BookOrder.abs, Incoming.entry, sameOrder, sameTag]
        congr 1
      rw [orders, MatchingBook.restResidual, if_pos positive, ← entry]
      have same : ∀ a b : BookOrder τ,
          LimitOrderEntry.precedes d a.abs b.abs = d.better a.price b.price := fun _ _ => rfl
      exact (insertUpper_map BookOrder.abs same _ _).symm

-- What the flat book holds after a call, less a residual for which there is no room here.
def ZeroAllocHftOrderBook.absWithinRoom (book : ZeroAllocHftOrderBook τ) (order : ParsedOrder)
    (flat : MatchingBook τ) : MatchingBook τ :=
  match Direction.ofSide order.side with
  | none => flat
  | some d =>
    if (book.own d).noRoom order.price then flat.setSides (book.abs.own d) (flat.opposite d) d
    else flat

section Refines

variable {book : ZeroAllocHftOrderBook τ} (ok : BookOk book) {order : ParsedOrder}
    (short : order.clOrdId.length < maxClOrdIdLen) (noNul : 0 ∉ order.clOrdId) (tag : τ)
    (outTrades : Option (Nat → ZeroAllocTrade)) (maxTrades tradeCounter timestampNs : Nat)

include ok short noNul

theorem submitOrder_abs :
    (book.submitOrder order tag outTrades maxTrades tradeCounter timestampNs).book.abs =
      book.absWithinRoom order
        (book.abs.submitOrder order tag [] tradeCounter timestampNs).book := by
  cases side : Direction.ofSide order.side with
  | none =>
      rw [book.submitOrder_of_other order tag outTrades maxTrades tradeCounter timestampNs side,
        MatchingBook.submitOrder_ignored _ order tag [] tradeCounter timestampNs side,
        ZeroAllocHftOrderBook.absWithinRoom, side]
  | some d =>
      obtain ⟨swept, effect⟩ := book.submitOrder_effect order tag outTrades maxTrades tradeCounter
        timestampNs side (ok.oppositeOk d)
      have code := Direction.ofSide_eq_some.mp side
      obtain ⟨trades, volume⟩ := foldl_record_totals
        (book.aggressor d order tag maxTrades timestampNs)
        (book.abs.incoming d order tag timestampNs) (book.outcome d order).fills
        (book.execution order outTrades tradeCounter) (book.abs.ledger [] tradeCounter) rfl rfl
      have sameOrder : (book.abs.incoming d order tag timestampNs).order = order := rfl
      have sameTag : (book.abs.incoming d order tag timestampNs).tag = tag := rfl
      have rested := abs_restOn (ok.sides d) code short noNul sameOrder sameTag
        (book.outcome d order).unmet timestampNs
      rw [effect.result, MatchingBook.submitOrder_eq _ order tag [] tradeCounter timestampNs side,
        ZeroAllocHftOrderBook.absWithinRoom, side, abs_outcome, abs_own]
      simp only [abs_setSides, effect.sweptOrders, trades, volume]
      split_ifs at rested ⊢ with full
      next =>
        rw [rested]
        cases d <;> rfl
      next =>
        rw [rested]
        cases d <;> rfl

omit short noNul in
theorem submitOrder_fills :
    (book.submitOrder order tag outTrades maxTrades tradeCounter timestampNs).fills.map
        (fillAgainst order) =
      (book.abs.submitOrder order tag [] tradeCounter timestampNs).trades.map
        (TradeExecution.fill order.side) := by
  cases side : Direction.ofSide order.side with
  | none =>
      rw [book.submitOrder_of_other order tag outTrades maxTrades tradeCounter timestampNs side,
        MatchingBook.submitOrder_ignored _ order tag [] tradeCounter timestampNs side]
      rfl
  | some d =>
      obtain ⟨swept, effect⟩ := book.submitOrder_effect order tag outTrades maxTrades tradeCounter
        timestampNs side (ok.oppositeOk d)
      have trades := foldl_record_trades (book.abs.incoming d order tag timestampNs) side
        (book.abs.outcome d order).fills (book.abs.ledger [] tradeCounter)
      rw [effect.fills, MatchingBook.submitOrder_eq _ order tag [] tradeCounter timestampNs side]
      refine Eq.trans ?_ trades.symm
      rw [abs_outcome]
      simp [MatchingBook.ledger, Outcome.map, fillAgainst, BookOrder.abs, MatchingBook.incoming]

theorem submitOrder_reported (buffer : Nat → ZeroAllocTrade) :
    let done := book.submitOrder order tag (some buffer) maxTrades tradeCounter timestampNs
    ∃ next, done.outTrades = some next ∧
      done.tradesGenerated = min maxTrades done.fills.length ∧
      (Slots.first next done.tradesGenerated).map (ZeroAllocTrade.fill order.side) =
        (done.fills.map (fillAgainst order)).take done.tradesGenerated := by
  intro done
  cases side : Direction.ofSide order.side with
  | none =>
      have ignored := book.submitOrder_of_other order tag (some buffer) maxTrades tradeCounter
        timestampNs side
      simp only [done, ignored]
      exact ⟨buffer, rfl, by simp, by simp⟩
  | some d =>
      obtain ⟨swept, effect⟩ := book.submitOrder_effect order tag (some buffer) maxTrades
        tradeCounter timestampNs side (ok.oppositeOk d)
      obtain ⟨next, reported⟩ := (book.aggressor d order tag maxTrades
        timestampNs).foldl_record_reported (book.execution order (some buffer) tradeCounter) rfl rfl
        (book.outcome d order).fills
      have fills : done.fills = (book.outcome d order).fills := effect.fills
      have view := reported.view (ZeroAllocTrade.fill order.side) (fillAgainst order) ?_
      next =>
        rw [fills, ← List.map_take]
        simp only [done, effect.result]
        exact ⟨next, reported.out, reported.count, view⟩
      next =>
        intro fill member old id
        have inside := (mem_of_mem_fills _ _ fill member).1
        rw [book.opposite_eq_own_flip] at inside
        exact fill_writeTrade (book.aggressor d order tag maxTrades timestampNs) side short noNul
          (ok.ids d.flip fill.1 inside) old id fill.2

omit short noNul in
theorem submitOrder_unreported :
    let done := book.submitOrder order tag none maxTrades tradeCounter timestampNs
    done.outTrades = none ∧ done.tradesGenerated = 0 := by
  intro done
  cases side : Direction.ofSide order.side with
  | none =>
      have ignored := book.submitOrder_of_other order tag none maxTrades tradeCounter timestampNs
        side
      simp only [done, ignored, and_self]
  | some d =>
      obtain ⟨swept, effect⟩ := book.submitOrder_effect order tag none maxTrades tradeCounter
        timestampNs side (ok.oppositeOk d)
      obtain ⟨out, count, -⟩ := (book.aggressor d order tag maxTrades
        timestampNs).foldl_record_unreported (book.execution order none tradeCounter) rfl
        (book.outcome d order).fills
      simp only [done, effect.result]
      exact ⟨out, count⟩

end Refines

theorem absWithinRoom_totals (book : ZeroAllocHftOrderBook τ) (order : ParsedOrder)
    (flat : MatchingBook τ) :
    (book.absWithinRoom order flat).totalTrades = flat.totalTrades ∧
      (book.absWithinRoom order flat).totalVolume = flat.totalVolume := by
  unfold ZeroAllocHftOrderBook.absWithinRoom
  split
  next => exact ⟨rfl, rfl⟩
  next d _ =>
    split_ifs
    next => cases d <;> exact ⟨rfl, rfl⟩
    next => exact ⟨rfl, rfl⟩

theorem submitOrder_refines_matchingBook [Inhabited τ] (symbol : Bytes)
    (calls : List (BookCall τ)) (order : ParsedOrder) (tag : τ)
    (outTrades : Option (Nat → ZeroAllocTrade)) (maxTrades tradeCounter timestampNs : Nat)
    (short : order.clOrdId.length ≤ 31) (noNul : 0 ∉ order.clOrdId) :
    let book := orderBookAfter symbol calls
    let done := book.submitOrder order tag outTrades maxTrades tradeCounter timestampNs
    let flat := book.abs.submitOrder order tag [] tradeCounter timestampNs
    done.fills.map (fillAgainst order) = flat.trades.map (TradeExecution.fill order.side) ∧
    done.book.totalTrades = flat.book.totalTrades ∧
    done.book.totalVolume = flat.book.totalVolume ∧
    (∀ buffer, outTrades = some buffer → ∃ next, done.outTrades = some next ∧
      done.tradesGenerated = min maxTrades flat.trades.length ∧
      (Slots.first next done.tradesGenerated).map (ZeroAllocTrade.fill order.side) =
        (flat.trades.map (TradeExecution.fill order.side)).take done.tradesGenerated) ∧
    (outTrades = none → done.outTrades = none ∧ done.tradesGenerated = 0) ∧
    done.book.abs = book.absWithinRoom order flat.book := by
  intro book done flat
  have ok : BookOk book := orderBookAfter_ok symbol calls
  have less : order.clOrdId.length < maxClOrdIdLen := Nat.lt_succ_of_le short
  have fills : done.fills.map (fillAgainst order) =
      flat.trades.map (TradeExecution.fill order.side) :=
    submitOrder_fills ok tag outTrades maxTrades tradeCounter timestampNs
  have abs : done.book.abs = book.absWithinRoom order flat.book :=
    submitOrder_abs ok less noNul tag outTrades maxTrades tradeCounter timestampNs
  obtain ⟨trades, volume⟩ := absWithinRoom_totals book order flat.book
  refine ⟨fills, ?_, ?_, ?_, ?_, abs⟩
  next =>
    rw [← trades, ← abs]
    rfl
  next =>
    rw [← volume, ← abs]
    rfl
  next =>
    rintro buffer rfl
    have count : done.fills.length = flat.trades.length := by
      simpa using congrArg List.length fills
    rw [← fills, ← count]
    exact submitOrder_reported ok less noNul tag maxTrades tradeCounter timestampNs buffer
  next =>
    rintro rfl
    exact submitOrder_unreported ok tag maxTrades tradeCounter timestampNs

def sellFive : ParsedOrder := { clOrdId := [83], side := 2, quantity := 5, price := 100, seqNum := 1 }

def buyThree : ParsedOrder := { clOrdId := [66], side := 1, quantity := 3, price := 100, seqNum := 2 }

theorem submitOrder_refines_buyThree :
    let book : ZeroAllocHftOrderBook Unit :=
      orderBookAfter [] [⟨sellFive, (), none, 0, 0, 0⟩]
    (book.submitOrder buyThree () none 0 0 0).fills.map (fillAgainst buyThree) =
        [{ passiveId := [83], aggressorId := [66], price := 100, qty := 3 }] ∧
      (book.submitOrder buyThree () none 0 0 0).book.abs =
        book.absWithinRoom buyThree (book.abs.submitOrder buyThree () [] 0 0).book := by
  intro book
  obtain ⟨fills, -, -, -, -, abs⟩ := submitOrder_refines_matchingBook []
    [⟨sellFive, (), none, 0, 0, 0⟩] buyThree () none 0 0 0 (by decide) (by decide)
  exact ⟨fills.trans (by decide +kernel), abs⟩

end HftFixEngine.Matching
