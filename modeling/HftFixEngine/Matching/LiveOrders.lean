import HftFixEngine.Matching.ZeroAllocSpec
import HftFixEngine.Shared.Grouped

set_option autoImplicit false

namespace HftFixEngine.Matching

open Protocol Word Consume SortedInsert

variable {τ : Type}

structure Live where
  price : Int
  qty : Nat
  deriving DecidableEq, Repr

def liveSupply : Supply Live where
  qty := Live.qty
  reduce := fun live n => { live with qty := live.qty - n }
  qty_reduce := fun _ _ => rfl

namespace Direction

def AtLeast (d : Direction) (price other : Int) : Prop := d.better other price = false

instance (d : Direction) : DecidableRel d.AtLeast :=
  fun price other => inferInstanceAs (Decidable (d.better other price = false))

instance (d : Direction) : Std.Antisymm d.AtLeast where
  antisymm a b first second := by
    rcases d.better_or_eq_or_better a b with better | same | better
    next => exact absurd better (by rw [second]; decide)
    next => exact same
    next => exact absurd better (by rw [first]; decide)

instance (d : Direction) : Std.Total d.AtLeast where
  total a b := by
    cases worse : d.better b a with
    | false => exact Or.inl worse
    | true => exact Or.inr (better_asymm worse)

instance (d : Direction) : IsTrans Int d.AtLeast where
  trans a b c first second := by
    cases d <;> simp only [AtLeast, better, decide_eq_false_iff_not] at * <;> omega

end Direction

namespace Live

def prices (d : Direction) (side : List Live) : List Int :=
  (side.map Live.price).dedup.insertionSort d.AtLeast

def atPrice (side : List Live) (price : Int) : List Live :=
  side.filter fun live => live.price = price

-- A live order joins its side behind the orders at least as good, while there is room for it.
def rest (d : Direction) (live : Live) (side : List Live) : List Live :=
  if 0 < live.qty ∧ (prices d side).length < maxBookLevels ∧
      (atPrice side live.price).length < maxOrdersPerLevel then
    insertUpper (fun a b => d.better a.price b.price) live side
  else side

end Live

-- A book without the arrays that keep it, but with their limits: a side has at most 64 prices and a
-- price at most 32 orders.
structure LiveBook where
  bids : List Live := []
  asks : List Live := []
  deriving DecidableEq, Repr

namespace LiveBook

def own (book : LiveBook) : Direction → List Live
  | .buy => book.bids
  | .sell => book.asks

def opposite (book : LiveBook) : Direction → List Live
  | .buy => book.asks
  | .sell => book.bids

def ofSides (own opposite : List Live) : Direction → LiveBook
  | .buy => { bids := own, asks := opposite }
  | .sell => { bids := opposite, asks := own }

def outcome (book : LiveBook) (d : Direction) (order : ParsedOrder) : Outcome Live :=
  consume liveSupply (fun live => d.priceLimitReached order.price live.price)
    order.quantity.toNat (book.opposite d)

def submit (book : LiveBook) (order : ParsedOrder) : LiveBook :=
  match Direction.ofSide order.side with
  | none => book
  | some d =>
    let outcome := book.outcome d order
    ofSides (Live.rest d ⟨order.price, outcome.unmet⟩ (book.own d)) outcome.rest d

def after (orders : List ParsedOrder) : LiveBook := orders.foldl submit {}

end LiveBook

def BookOrder.live (order : BookOrder τ) : Live := ⟨order.price, order.remainingQty⟩

def LevelStore.live (store : LevelStore τ) : List Live := store.orders.map BookOrder.live

def ZeroAllocHftOrderBook.live (book : ZeroAllocHftOrderBook τ) : LiveBook :=
  { bids := book.bid.live, asks := book.ask.live }

section Side

theorem LevelStore.live_eq (store : LevelStore τ) :
    store.live = store.activeLevels.flatMap fun level => level.queue.map BookOrder.live := by
  rw [LevelStore.live, LevelStore.orders, List.map_flatMap]

variable {d : Direction} {store : LevelStore τ} (ok : StoreOk d store)

include ok

theorem StoreOk.grouped :
    Grouped PriceLevel.price (fun level => level.queue.map BookOrder.live) Live.price
      store.activeLevels where
  distinct := by
    refine List.pairwise_map.mpr (ok.sorted.imp ?_)
    intro a b better same
    rw [same, d.better_irrefl] at better
    cases better
  own level member live held := by
    obtain ⟨order, queued, rfl⟩ := List.mem_map.mp held
    exact ((ok.levels level member).1.resting order queued).2.1
  some level member := by
    have count := (ok.levels level member).2
    rw [← PriceLevel.queue_length] at count
    simpa using List.ne_nil_of_length_pos count

theorem StoreOk.live_prices :
    Live.prices d store.live = store.activeLevels.map PriceLevel.price := by
  rw [Live.prices, store.live_eq]
  refine ok.grouped.sorted_keys d.AtLeast ?_
  exact List.pairwise_map.mpr (ok.sorted.imp Direction.better_asymm)

theorem StoreOk.live_prices_length : (Live.prices d store.live).length = store.levelCount := by
  rw [ok.live_prices, LevelStore.activeLevels_eq, List.length_map, Slots.first_length]

theorem StoreOk.live_atPrice {level : PriceLevel τ} (member : level ∈ store.activeLevels) :
    Live.atPrice store.live level.price = level.queue.map BookOrder.live := by
  rw [Live.atPrice, store.live_eq]
  exact ok.grouped.filter_eq member

theorem StoreOk.live_queueAt (price : Int) :
    Live.atPrice store.live price = (store.queueAt price).map BookOrder.live := by
  unfold LevelStore.queueAt
  split
  next level found =>
    have same := List.find?_some found
    rw [← ok.live_atPrice (List.mem_of_find?_eq_some found), of_decide_eq_true same]
  next missing =>
    rw [Live.atPrice, store.live_eq, List.map_nil]
    refine ok.grouped.filter_of_notMem ?_
    intro member
    obtain ⟨level, active, same⟩ := List.mem_map.mp member
    exact List.find?_eq_none.mp missing level active (decide_eq_true same)

theorem restOn_live {order : ParsedOrder} (side : order.side = d.code)
    (residual timestampNs : Nat) (tag : τ) :
    (restOn d order residual timestampNs tag store).live =
      Live.rest d ⟨order.price, residual⟩ store.live := by
  have queued : (Live.atPrice store.live order.price).length =
      (store.queueAt order.price).length := by
    rw [ok.live_queueAt, List.length_map]
  unfold Live.rest
  rw [ok.live_prices_length, queued]
  by_cases rests : 0 < residual ∧ store.noRoom order.price = false
  next =>
    obtain ⟨chars, orders, -⟩ := restOn_rested timestampNs tag ok side rests.1 rests.2
    have room := rests.2
    simp only [LevelStore.noRoom, Bool.or_eq_false_iff, decide_eq_false_iff_not,
      Nat.not_le] at room
    have same : ∀ a b : BookOrder τ,
        d.better a.live.price b.live.price = d.better a.price b.price := fun _ _ => rfl
    rw [if_pos ⟨rests.1, room⟩, LevelStore.live, orders]
    exact (insertUpper_map BookOrder.live same _ _).symm
  next =>
    have dropped : residual = 0 ∨ store.noRoom order.price = true := by
      by_cases none : residual = 0
      next => exact Or.inl none
      next =>
        refine Or.inr ?_
        by_contra room
        exact rests ⟨Nat.pos_of_ne_zero none, by simpa using room⟩
    rw [restOn_dropped timestampNs tag ok side dropped, if_neg]
    simp only [LevelStore.noRoom, Bool.or_eq_true, decide_eq_true_eq] at dropped ⊢
    omega

end Side

section Book

theorem live_ofSides (book : ZeroAllocHftOrderBook τ) (d : Direction) :
    book.live = LiveBook.ofSides (book.own d).live (book.opposite d).live d := by
  cases d <;> rfl

theorem live_own (book : ZeroAllocHftOrderBook τ) (d : Direction) :
    book.live.own d = (book.own d).live := by
  cases d <;> rfl

theorem live_opposite (book : ZeroAllocHftOrderBook τ) (d : Direction) :
    book.live.opposite d = (book.opposite d).live := by
  cases d <;> rfl

def QuantityFits (order : ParsedOrder) : Prop := 0 ≤ order.quantity ∧ order.quantity < 2 ^ 32

theorem toUint32_of_fits {order : ParsedOrder} (fits : QuantityFits order) :
    toUint32 order.quantity = order.quantity.toNat := by
  rw [toUint32, Int.emod_eq_of_lt fits.1 fits.2]

theorem live_outcome (book : ZeroAllocHftOrderBook τ) (d : Direction) {order : ParsedOrder}
    (fits : QuantityFits order) :
    book.live.outcome d order = (book.outcome d order).map BookOrder.live := by
  rw [LiveBook.outcome, ← toUint32_of_fits fits, live_opposite]
  exact consume_map BookOrder.live (fun _ => rfl) (fun _ _ => rfl) (fun _ => rfl) _ _

theorem BookOk.submitOrder_live {book : ZeroAllocHftOrderBook τ} (ok : BookOk book)
    {order : ParsedOrder} (fits : QuantityFits order) (tag : τ)
    (outTrades : Option (Nat → ZeroAllocTrade)) (maxTrades tradeCounter timestampNs : Nat) :
    (book.submitOrder order tag outTrades maxTrades tradeCounter timestampNs).book.live =
      book.live.submit order := by
  unfold LiveBook.submit
  cases side : Direction.ofSide order.side with
  | none =>
      rw [book.submitOrder_of_other order tag outTrades maxTrades tradeCounter timestampNs side]
  | some d =>
      have code := Direction.ofSide_eq_some.mp side
      obtain ⟨swept, effect⟩ := book.submitOrder_effect order tag outTrades maxTrades tradeCounter
        timestampNs side (ok.oppositeOk d)
      have left : swept.live = ((book.outcome d order).map BookOrder.live).rest := by
        rw [LevelStore.live, effect.sweptOrders]
        rfl
      rw [live_ofSides _ d, effect.own, effect.opposite, restOn_live (ok.sides d) code, left,
        ← live_outcome book d fits]
      simp only [live_own, live_outcome book d fits]
      rfl

theorem orderBookAfter_append [Inhabited τ] (symbol : Bytes) (calls : List (BookCall τ))
    (call : BookCall τ) :
    orderBookAfter symbol (calls ++ [call]) = (call.on (orderBookAfter symbol calls)).book := by
  simp [orderBookAfter]

theorem orderBookAfter_live [Inhabited τ] (symbol : Bytes) (calls : List (BookCall τ))
    (fits : ∀ call ∈ calls, QuantityFits call.order) :
    (orderBookAfter symbol calls).live = LiveBook.after (calls.map BookCall.order) := by
  induction calls using List.reverseRecOn with
  | nil => rfl
  | append_singleton calls call ih =>
      have earlier := ih fun other member => fits other (List.mem_append_left _ member)
      have ok : BookOk (orderBookAfter symbol calls) := orderBookAfter_ok symbol calls
      rw [orderBookAfter_append, BookCall.on, ok.submitOrder_live (fits call (by simp)), earlier]
      simp [LiveBook.after]

end Book

namespace LiveBook

def Bounded (limit : Nat) (book : LiveBook) : Prop :=
  ∀ d, ∀ live ∈ book.own d, live.qty ≤ limit

theorem rest_bounded {limit : Nat} {d : Direction} {live : Live} {side : List Live}
    (small : live.qty ≤ limit) (bounded : ∀ other ∈ side, other.qty ≤ limit) :
    ∀ other ∈ Live.rest d live side, other.qty ≤ limit := by
  unfold Live.rest
  split
  next =>
    intro other member
    rcases mem_insertUpper.mp member with rfl | old
    next => exact small
    next => exact bounded other old
  next => exact bounded

theorem Bounded.submit {limit : Nat} {book : LiveBook} (bounded : book.Bounded limit)
    {order : ParsedOrder} (small : order.quantity ≤ limit) : (book.submit order).Bounded limit := by
  unfold LiveBook.submit
  split
  next => exact bounded
  next d _ =>
    have mine : ∀ live ∈ Live.rest d ⟨order.price, (book.outcome d order).unmet⟩ (book.own d),
        live.qty ≤ limit := by
      refine rest_bounded ?_ (bounded d)
      have unmet : (book.outcome d order).unmet ≤ order.quantity.toNat :=
        consume_unmet_le _ _ _ _
      simp only
      omega
    have theirs : ∀ live ∈ (book.outcome d order).rest, live.qty ≤ limit := by
      refine forall_mem_rest _ _ ?_ ?_
      next =>
        have flipped := bounded d.flip
        cases d <;> exact flipped
      next =>
        intro live n within _
        exact Nat.le_trans (Nat.sub_le _ _) within
    intro e
    cases d <;> cases e
    next => exact mine
    next => exact theirs
    next => exact theirs
    next => exact mine

theorem after_bounded {limit : Nat} (orders : List ParsedOrder)
    (small : ∀ order ∈ orders, order.quantity ≤ limit) : (after orders).Bounded limit := by
  refine List.foldlRecOn orders _ ?_
    fun book bounded order member => bounded.submit (small order member)
  intro d live member
  cases d <;> cases member

end LiveBook

end HftFixEngine.Matching
