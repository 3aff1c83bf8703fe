import HftFixEngine.Matching.ZeroAllocResting

set_option autoImplicit false

namespace HftFixEngine.Matching

open Protocol Word Consume SortedInsert

variable {τ : Type}

def LevelStore.noRoom (store : LevelStore τ) (price : Int) : Bool :=
  decide (maxBookLevels ≤ store.levelCount) ||
    decide (maxOrdersPerLevel ≤ (store.queueAt price).length)

def restOn (d : Direction) (order : ParsedOrder) (residual timestampNs : Nat) (tag : τ)
    (store : LevelStore τ) : LevelStore τ :=
  if 0 < residual ∧ store.levelCount < maxBookLevels then
    store.addToBook d order residual timestampNs tag
  else store

section RestOn

variable {d : Direction} {order : ParsedOrder} {residual : Nat} {store : LevelStore τ}
    (timestampNs : Nat) (tag : τ)

theorem restOn_ok (ok : StoreOk d store) (side : order.side = d.code) :
    StoreOk d (restOn d order residual timestampNs tag store) := by
  unfold restOn
  split_ifs with rests
  next => exact (addToBook_spec ok rests.2 timestampNs tag side rests.1).1
  next => exact ok

theorem restOn_dropped (ok : StoreOk d store) (side : order.side = d.code)
    (dropped : residual = 0 ∨ store.noRoom order.price = true) :
    restOn d order residual timestampNs tag store = store := by
  unfold restOn
  split_ifs with rests
  next =>
    obtain ⟨positive, room⟩ := rests
    have spec := (addToBook_spec ok room timestampNs tag side positive).2
    rw [if_neg] at spec
    next => exact spec
    next =>
      simp only [LevelStore.noRoom, Bool.or_eq_true, decide_eq_true_eq] at dropped
      omega
  next => rfl

theorem restOn_rested (ok : StoreOk d store) (side : order.side = d.code)
    (positive : 0 < residual) (room : store.noRoom order.price = false) :
    ∃ chars, let node := residualNode order residual timestampNs tag chars
      (restOn d order residual timestampNs tag store).orders =
        insertUpper (fun a b => d.better a.price b.price) node store.orders ∧
      (restOn d order residual timestampNs tag store).queueAt order.price =
        store.queueAt order.price ++ [node] := by
  simp only [LevelStore.noRoom, Bool.or_eq_false_iff, decide_eq_false_iff_not, Nat.not_le] at room
  have spec := (addToBook_spec ok room.1 timestampNs tag side positive).2
  rw [if_pos room.2] at spec
  rwa [restOn, if_pos ⟨positive, room.1⟩]

end RestOn

namespace ZeroAllocHftOrderBook

theorem opposite_eq_own_flip (book : ZeroAllocHftOrderBook τ) (d : Direction) :
    book.opposite d = book.own d.flip := by
  cases d <;> rfl

def aggressor (book : ZeroAllocHftOrderBook τ) (d : Direction) (order : ParsedOrder) (tag : τ)
    (maxTrades timestampNs : Nat) : Aggressor τ :=
  { direction := d, order, tag, symbol := book.symbol, maxTrades, timestampNs }

def execution (book : ZeroAllocHftOrderBook τ) (order : ParsedOrder)
    (outTrades : Option (Nat → ZeroAllocTrade)) (tradeCounter : Nat) : Execution τ :=
  { remainingQty := toUint32 order.quantity, tradesGenerated := 0, outTrades, tradeCounter
    totalTrades := book.totalTrades, totalVolume := book.totalVolume, fills := [] }

def outcome (book : ZeroAllocHftOrderBook τ) (d : Direction) (order : ParsedOrder) :
    Outcome (BookOrder τ) :=
  consume orderSupply (fun passive => d.priceLimitReached order.price passive.price)
    (toUint32 order.quantity) (book.opposite d).orders

theorem outcome_fills_add_unmet (book : ZeroAllocHftOrderBook τ) (d : Direction)
    (order : ParsedOrder) :
    ((book.outcome d order).fills.map Prod.snd).sum + (book.outcome d order).unmet =
      toUint32 order.quantity :=
  consume_conserves _ _ _ _

section Submit

variable (book : ZeroAllocHftOrderBook τ) (order : ParsedOrder) (tag : τ)
    (outTrades : Option (Nat → ZeroAllocTrade)) (maxTrades tradeCounter timestampNs : Nat)

theorem submitOrder_of_other (other : Direction.ofSide order.side = none) :
    book.submitOrder order tag outTrades maxTrades tradeCounter timestampNs =
      { tradesGenerated := 0, book, outTrades, tradeCounter, fills := [] } := by
  simp [submitOrder, other]

structure Effect (d : Direction) (done : Submitted τ) (swept : LevelStore τ) : Prop where
  sweptOk : StoreOk d.flip swept
  sweptOrders : swept.orders = (book.outcome d order).rest
  result :
    let exec := (book.outcome d order).fills.foldl
      (book.aggressor d order tag maxTrades timestampNs).record
      (book.execution order outTrades tradeCounter)
    done =
      { tradesGenerated := exec.tradesGenerated
        book :=
          { book.setSides (restOn d order (book.outcome d order).unmet timestampNs tag
              (book.own d)) swept d with
            totalTrades := exec.totalTrades, totalVolume := exec.totalVolume }
        outTrades := exec.outTrades
        tradeCounter := exec.tradeCounter
        fills := exec.fills }

variable {book order tag outTrades maxTrades tradeCounter timestampNs} in
theorem Effect.fills {d : Direction} {done : Submitted τ} {swept : LevelStore τ}
    (effect : Effect book order tag outTrades maxTrades tradeCounter timestampNs d done swept) :
    done.fills = (book.outcome d order).fills := by
  rw [effect.result, Aggressor.foldl_record_fills]
  rfl

variable {book order tag outTrades maxTrades tradeCounter timestampNs} in
theorem Effect.own {d : Direction} {done : Submitted τ} {swept : LevelStore τ}
    (effect : Effect book order tag outTrades maxTrades tradeCounter timestampNs d done swept) :
    done.book.own d =
      restOn d order (book.outcome d order).unmet timestampNs tag (book.own d) := by
  rw [effect.result]
  cases d <;> rfl

variable {book order tag outTrades maxTrades tradeCounter timestampNs} in
theorem Effect.opposite {d : Direction} {done : Submitted τ} {swept : LevelStore τ}
    (effect : Effect book order tag outTrades maxTrades tradeCounter timestampNs d done swept) :
    done.book.opposite d = swept := by
  rw [effect.result]
  cases d <;> rfl

theorem submitOrder_effect {d : Direction} (side : Direction.ofSide order.side = some d)
    (ok : StoreOk d.flip (book.opposite d)) :
    ∃ swept, Effect book order tag outTrades maxTrades tradeCounter timestampNs d
      (book.submitOrder order tag outTrades maxTrades tradeCounter timestampNs) swept := by
  let aggressor := book.aggressor d order tag maxTrades timestampNs
  let exec := book.execution order outTrades tradeCounter
  have small : exec.remainingQty < 2 ^ 32 := toUint32_lt _
  obtain ⟨swept, run, sweptOk, orders⟩ :=
    aggressor.run_matchBestLevel _ ok small (Nat.le_refl (book.opposite d).levelCount)
  have matching : aggressor.matchSide (book.opposite d) exec =
      (swept, (book.outcome d order).fills.foldl aggressor.record exec) := run
  have residual : ((book.outcome d order).fills.foldl aggressor.record exec).remainingQty =
      (book.outcome d order).unmet := aggressor.remainingQty_after _ rfl _ _
  refine ⟨swept, sweptOk, orders, ?_⟩
  simp only [aggressor, exec, ZeroAllocHftOrderBook.aggressor, execution] at matching residual
  simp only [submitOrder, side, matching, residual]
  rfl

end Submit

end ZeroAllocHftOrderBook

section Reading

variable {d : Direction} {store : LevelStore τ} (ok : StoreOk d store)

include ok

theorem StoreOk.orders_sorted :
    store.orders.Pairwise fun a b => d.better b.price a.price = false := by
  have priceOf := fun level member order inside =>
    ((ok.levels level member).1.resting order inside).2.1
  rw [LevelStore.orders, List.pairwise_flatMap]
  constructor
  next =>
    intro level member
    apply List.pairwise_of_forall_mem_list
    intro a first b second
    rw [priceOf level member a first, priceOf level member b second]
    exact d.better_irrefl _
  next =>
    refine ok.sorted.imp_of_mem ?_
    intro level other member second better a first b inside
    rw [priceOf level member a first, priceOf other second b inside]
    exact Direction.better_asymm better

theorem mem_orders_restOn {order : ParsedOrder} {residual timestampNs : Nat} {tag : τ}
    (side : order.side = d.code) {resting : BookOrder τ}
    (member : resting ∈ (restOn d order residual timestampNs tag store).orders) :
    resting ∈ store.orders ∨
      0 < residual ∧ ∃ chars, resting = residualNode order residual timestampNs tag chars := by
  by_cases dropped : residual = 0 ∨ store.noRoom order.price = true
  next =>
    rw [restOn_dropped timestampNs tag ok side dropped] at member
    exact Or.inl member
  next =>
    obtain ⟨some, room⟩ := not_or.mp dropped
    have positive : 0 < residual := Nat.pos_of_ne_zero some
    obtain ⟨chars, orders, -⟩ :=
      restOn_rested timestampNs tag ok side positive (by simpa using room)
    rw [orders] at member
    rcases mem_insertUpper.mp member with new | old
    next => exact Or.inr ⟨positive, chars, new⟩
    next => exact Or.inl old

end Reading

section CharArrays

theorem cString_append_nul (view rest : Bytes) : cString (view ++ 0 :: rest) = cString view := by
  induction view with
  | nil => simp [cString]
  | cons byte view ih =>
      simp only [cString, List.cons_append, List.takeWhile_cons] at ih ⊢
      rw [ih]

theorem cString_copySvToChar (dest view : Bytes) (maxLen : Nat) :
    cString (copySvToChar dest view maxLen) = cString (view.take (min view.length maxLen)) :=
  cString_append_nul _ _

theorem cString_length_le (view : Bytes) : (cString view).length ≤ view.length :=
  (List.takeWhile_sublist _).length_le

theorem cString_copySvToChar_length (dest view : Bytes) (maxLen : Nat) :
    (cString (copySvToChar dest view maxLen)).length ≤ maxLen := by
  rw [cString_copySvToChar]
  have most := cString_length_le (view.take (min view.length maxLen))
  rw [List.length_take] at most
  omega

end CharArrays

theorem rest_beyond_limit (book : ZeroAllocHftOrderBook τ) (d : Direction) (order : ParsedOrder)
    {swept : LevelStore τ}
    (sweptOk : StoreOk d.flip swept) (orders : swept.orders = (book.outcome d order).rest)
    (residual : (book.outcome d order).unmet ≠ 0) :
    ∀ other ∈ (book.outcome d order).rest,
      d.priceLimitReached order.price other.price = true := by
  refine Direction.beyond_of_sorted BookOrder.price _ ?_ (consume_exit _ _ residual)
  rw [← orders]
  exact sweptOk.orders_sorted

structure BookOk (book : ZeroAllocHftOrderBook τ) : Prop where
  sides : ∀ d, StoreOk d (book.own d)
  uncrossed : ∀ d, ∀ mine ∈ (book.own d).orders, ∀ other ∈ (book.opposite d).orders,
    d.priceLimitReached mine.price other.price = true
  ids : ∀ d, ∀ order ∈ (book.own d).orders, (cString order.clOrdId).length < maxClOrdIdLen

namespace BookOk

variable {book : ZeroAllocHftOrderBook τ} (ok : BookOk book)

include ok

theorem oppositeOk (d : Direction) : StoreOk d.flip (book.opposite d) := by
  rw [book.opposite_eq_own_flip]
  exact ok.sides d.flip

-- What a call leaves on the other side is part of what it found there.
theorem rest_uncrossed (d : Direction) (order : ParsedOrder) :
    ∀ mine ∈ (book.own d).orders, ∀ other ∈ (book.outcome d order).rest,
      d.priceLimitReached mine.price other.price = true := by
  intro mine member
  exact forall_mem_rest (p := fun other : BookOrder τ =>
    d.priceLimitReached mine.price other.price = true) _ _ (ok.uncrossed d mine member)
    (fun other n beyond left => beyond)

end BookOk

theorem ZeroAllocHftOrderBook.forall_sides {p : Direction → LevelStore τ → Prop}
    {book : ZeroAllocHftOrderBook τ} {d : Direction} (own : p d (book.own d))
    (opposite : p d.flip (book.opposite d)) (e : Direction) : p e (book.own e) := by
  rcases d.eq_or_eq_flip e with rfl | rfl
  next => exact own
  next =>
    rw [← book.opposite_eq_own_flip]
    exact opposite

theorem uncrossed_of_side {book : ZeroAllocHftOrderBook τ} {d : Direction}
    (apart : ∀ mine ∈ (book.own d).orders, ∀ other ∈ (book.opposite d).orders,
      d.priceLimitReached mine.price other.price = true) (e : Direction) :
    ∀ mine ∈ (book.own e).orders, ∀ other ∈ (book.opposite e).orders,
      e.priceLimitReached mine.price other.price = true := by
  rcases d.eq_or_eq_flip e with rfl | rfl
  next => exact apart
  next =>
    intro mine member other second
    rw [d.priceLimitReached_flip]
    rw [← book.opposite_eq_own_flip] at member
    refine apart other ?_ mine member
    cases d <;> exact second

theorem BookOk.forall_orders {p : BookOrder τ → Prop} {book : ZeroAllocHftOrderBook τ}
    (ok : BookOk book) (order : ParsedOrder) (tag : τ)
    (outTrades : Option (Nat → ZeroAllocTrade)) (maxTrades tradeCounter timestampNs : Nat)
    (start : ∀ d, ∀ resting ∈ (book.own d).orders, p resting)
    (reduced : ∀ resting n, p resting → p (orderSupply.reduce resting n))
    (added : ∀ residual chars, p (residualNode order residual timestampNs tag chars))
    (d : Direction) :
    ∀ resting ∈ ((book.submitOrder order tag outTrades maxTrades tradeCounter
      timestampNs).book.own d).orders, p resting := by
  cases side : Direction.ofSide order.side with
  | none =>
      rw [book.submitOrder_of_other order tag outTrades maxTrades tradeCounter timestampNs side]
      exact start d
  | some e =>
      have code := Direction.ofSide_eq_some.mp side
      obtain ⟨swept, effect⟩ := book.submitOrder_effect order tag outTrades maxTrades tradeCounter
        timestampNs side (ok.oppositeOk e)
      refine ZeroAllocHftOrderBook.forall_sides (d := e)
        (p := fun _ store => ∀ resting ∈ store.orders, p resting) ?_ ?_ d
      next =>
        rw [effect.own]
        intro resting member
        rcases mem_orders_restOn (ok.sides e) code member with old | ⟨-, chars, rfl⟩
        next => exact start e resting old
        next => exact added _ chars
      next =>
        rw [effect.opposite, effect.sweptOrders]
        refine forall_mem_rest (p := p) _ _ ?_ (fun resting n holds _ => reduced resting n holds)
        rw [book.opposite_eq_own_flip]
        exact start e.flip

theorem BookOk.submitOrder {book : ZeroAllocHftOrderBook τ} (ok : BookOk book)
    (order : ParsedOrder) (tag : τ) (outTrades : Option (Nat → ZeroAllocTrade))
    (maxTrades tradeCounter timestampNs : Nat) :
    BookOk (book.submitOrder order tag outTrades maxTrades tradeCounter timestampNs).book := by
  cases side : Direction.ofSide order.side with
  | none =>
      rw [book.submitOrder_of_other order tag outTrades maxTrades tradeCounter timestampNs side]
      exact ok
  | some d =>
      have code := Direction.ofSide_eq_some.mp side
      obtain ⟨swept, effect⟩ := book.submitOrder_effect order tag outTrades maxTrades tradeCounter
        timestampNs side (ok.oppositeOk d)
      refine ⟨ZeroAllocHftOrderBook.forall_sides (d := d) ?_ ?_, uncrossed_of_side (d := d) ?_,
        ok.forall_orders order tag outTrades maxTrades tradeCounter timestampNs ok.ids
          (fun _ _ short => short) ?_⟩
      next =>
        rw [effect.own]
        exact restOn_ok timestampNs tag (ok.sides d) code
      next =>
        rw [effect.opposite]
        exact effect.sweptOk
      next =>
        rw [effect.own, effect.opposite, effect.sweptOrders]
        intro mine member
        rcases mem_orders_restOn (ok.sides d) code member with old | ⟨residual, chars, rfl⟩
        next => exact ok.rest_uncrossed d order mine old
        next => exact rest_beyond_limit book d order effect.sweptOk effect.sweptOrders (by omega)
      next =>
        intro residual chars
        have short := cString_copySvToChar_length chars order.clOrdId (maxClOrdIdLen - 1)
        exact Nat.lt_of_le_pred (Nat.succ_pos 31) short

structure BookCall (τ : Type) where
  order : ParsedOrder
  tag : τ
  outTrades : Option (Nat → ZeroAllocTrade)
  maxTrades : Nat
  tradeCounter : Nat
  timestampNs : Nat

def BookCall.on (call : BookCall τ) (book : ZeroAllocHftOrderBook τ) :
    ZeroAllocHftOrderBook.Submitted τ :=
  book.submitOrder call.order call.tag call.outTrades call.maxTrades call.tradeCounter
    call.timestampNs

def orderBookAfter [Inhabited τ] (symbol : Bytes) (calls : List (BookCall τ)) :
    ZeroAllocHftOrderBook τ :=
  calls.foldl (fun book call => (call.on book).book) (ZeroAllocHftOrderBook.create symbol)

theorem freshStore_ok [Inhabited τ] (d : Direction) :
    StoreOk d (ZeroAllocHftOrderBook.freshStore : LevelStore τ) := by
  refine ⟨?_, List.Pairwise.nil, ?_⟩
  next =>
    have free : (ZeroAllocHftOrderBook.freshStore : LevelStore τ).freePtrs =
        List.range maxBookLevels := List.map_id' _
    have active : (ZeroAllocHftOrderBook.freshStore : LevelStore τ).activePtrs = [] := rfl
    rw [free, active, List.nil_append]
  next =>
    intro level member
    exact absurd member List.not_mem_nil

theorem create_ok [Inhabited τ] (symbol : Bytes) :
    BookOk (ZeroAllocHftOrderBook.create symbol : ZeroAllocHftOrderBook τ) := by
  have none : ∀ d, ((ZeroAllocHftOrderBook.create symbol : ZeroAllocHftOrderBook τ).own d).orders
      = [] := by
    intro d
    cases d <;> rfl
  refine ⟨?_, ?_, ?_⟩
  next =>
    intro d
    cases d <;> exact freshStore_ok _
  next =>
    intro d mine member
    simp [none] at member
  next =>
    intro d order member
    simp [none] at member

theorem orderBookAfter_ok [Inhabited τ] (symbol : Bytes) (calls : List (BookCall τ)) :
    BookOk (orderBookAfter symbol calls) := by
  unfold orderBookAfter
  exact List.foldlRecOn calls _ (create_ok symbol) fun book ok call _ =>
    ok.submitOrder call.order call.tag call.outTrades call.maxTrades call.tradeCounter
      call.timestampNs

end HftFixEngine.Matching
