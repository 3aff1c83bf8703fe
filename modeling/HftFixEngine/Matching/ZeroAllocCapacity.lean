import HftFixEngine.Matching.ZeroAllocSpec

set_option autoImplicit false

namespace HftFixEngine.Matching

open Protocol Word Consume

variable {τ : Type}

def LevelStore.hasLevel (store : LevelStore τ) (price : Int) : Bool :=
  store.activeLevels.any fun level => level.price = price

-- There is a free slot in the level at this price, or a free level when it has none.
def LevelStore.hasRoom (store : LevelStore τ) (price : Int) : Bool :=
  if store.hasLevel price then decide ((store.queueAt price).length < maxOrdersPerLevel)
  else decide (store.levelCount < maxBookLevels)

def LevelStore.shutOut (store : LevelStore τ) (price : Int) : Bool :=
  decide (store.levelCount = maxBookLevels) && store.hasLevel price &&
    decide ((store.queueAt price).length < maxOrdersPerLevel)

theorem queueAt_of_noLevel {store : LevelStore τ} {price : Int}
    (missing : store.hasLevel price = false) : store.queueAt price = [] := by
  apply queueAt_of_missing
  simpa [LevelStore.hasLevel] using missing

theorem noRoom_iff {d : Direction} {store : LevelStore τ} (ok : StoreOk d store) (price : Int) :
    store.hasRoom price = true ∧ store.noRoom price = true ↔ store.shutOut price = true := by
  have counts := ok.counts
  cases level : store.hasLevel price with
  | false =>
      have empty := queueAt_of_noLevel level
      simp [LevelStore.hasRoom, LevelStore.noRoom, LevelStore.shutOut, level, empty]
  | true =>
      simp only [LevelStore.hasRoom, LevelStore.noRoom, LevelStore.shutOut, level, if_true,
        Bool.and_true, decide_eq_true_eq, Bool.or_eq_true, Bool.and_eq_true]
      omega

theorem outcome_of_hasLevel {book : ZeroAllocHftOrderBook τ} (ok : BookOk book) {d : Direction}
    {order : ParsedOrder} (level : (book.own d).hasLevel order.price = true) :
    (book.outcome d order).fills = [] ∧
      (book.outcome d order).unmet = toUint32 order.quantity := by
  obtain ⟨found, active, price⟩ := List.any_eq_true.mp level
  obtain ⟨levelOk, some⟩ := (ok.sides d).levels found active
  have beyond : ∀ other ∈ (book.opposite d).orders,
      d.priceLimitReached order.price other.price = true := by
    have resting := PriceLevel.queue_eq_front found some levelOk.head_lt
    have front : found.frontOrder ∈ found.queue := by simp [resting]
    have mine := List.mem_flatMap.mpr ⟨found, active, front⟩
    intro other member
    have apart := ok.uncrossed d found.frontOrder mine other member
    rwa [(levelOk.resting _ front).2.1, of_decide_eq_true price] at apart
  have stopped : book.outcome d order =
      ⟨[], (book.opposite d).orders, toUint32 order.quantity⟩ := by
    unfold ZeroAllocHftOrderBook.outcome
    cases orders : (book.opposite d).orders with
    | nil => simp
    | cons best others =>
        apply consume_refused
        exact beyond best (by simp [orders])
  simp [stopped]

def RestsInFull (d : Direction) (order : ParsedOrder) (book : ZeroAllocHftOrderBook τ)
    (done : ZeroAllocHftOrderBook.Submitted τ) : Prop :=
  ∃ node, (done.book.own d).queueAt order.price = (book.own d).queueAt order.price ++ [node] ∧
    node.orderId = order.seqNum ∧ node.side = order.side ∧ node.price = order.price ∧
    (done.fills.map Prod.snd).sum + node.remainingQty = toUint32 order.quantity

def NothingLost (d : Direction) (order : ParsedOrder) (book : ZeroAllocHftOrderBook τ)
    (done : ZeroAllocHftOrderBook.Submitted τ) : Prop :=
  (done.fills.map Prod.snd).sum < toUint32 order.quantity →
    (book.own d).hasRoom order.price = true → RestsInFull d order book done

section Capacity

variable {book : ZeroAllocHftOrderBook τ} (ok : BookOk book) {order : ParsedOrder}
    {d : Direction} (side : Direction.ofSide order.side = some d) (tag : τ)
    (outTrades : Option (Nat → ZeroAllocTrade)) (maxTrades tradeCounter timestampNs : Nat)

include ok side

theorem nothingLost_iff :
    NothingLost d order book
        (book.submitOrder order tag outTrades maxTrades tradeCounter timestampNs) ↔
      ¬ ((book.own d).shutOut order.price = true ∧ toUint32 order.quantity ≠ 0) := by
  have code := Direction.ofSide_eq_some.mp side
  obtain ⟨swept, effect⟩ := book.submitOrder_effect order tag outTrades maxTrades tradeCounter
    timestampNs side (ok.oppositeOk d)
  have conserved := book.outcome_fills_add_unmet d order
  unfold NothingLost RestsInFull
  rw [effect.fills, effect.own]
  constructor
  next =>
    rintro kept ⟨shut, some⟩
    obtain ⟨room, full⟩ := (noRoom_iff (ok.sides d) order.price).mpr shut
    have level : (book.own d).hasLevel order.price = true := by
      simp only [LevelStore.shutOut, Bool.and_eq_true] at shut
      exact shut.1.2
    obtain ⟨fills, -⟩ := outcome_of_hasLevel ok level
    obtain ⟨node, queue, -⟩ := kept (by simp [fills]; omega) room
    rw [restOn_dropped timestampNs tag (ok.sides d) code (Or.inr full)] at queue
    simp at queue
  next =>
    intro notShut residual room
    have positive : 0 < (book.outcome d order).unmet := by omega
    have free : (book.own d).noRoom order.price = false := by
      by_contra full
      refine notShut ⟨(noRoom_iff (ok.sides d) order.price).mp ⟨room, by simpa using full⟩, ?_⟩
      omega
    obtain ⟨chars, -, queue⟩ := restOn_rested timestampNs tag (ok.sides d) code positive free
    exact ⟨_, queue, rfl, rfl, rfl, conserved⟩

end Capacity

theorem residual_rests_iff [Inhabited τ] (symbol : Bytes) (calls : List (BookCall τ))
    (order : ParsedOrder) (d : Direction) (side : Direction.ofSide order.side = some d) (tag : τ)
    (outTrades : Option (Nat → ZeroAllocTrade)) (maxTrades tradeCounter timestampNs : Nat) :
    let book := orderBookAfter symbol calls
    NothingLost d order book
        (book.submitOrder order tag outTrades maxTrades tradeCounter timestampNs) ↔
      ¬ ((book.own d).levelCount = maxBookLevels ∧
        (book.own d).hasLevel order.price = true ∧
        ((book.own d).queueAt order.price).length < maxOrdersPerLevel ∧
        toUint32 order.quantity ≠ 0) := by
  intro book
  rw [nothingLost_iff (orderBookAfter_ok symbol calls) side tag outTrades maxTrades tradeCounter
    timestampNs]
  simp only [LevelStore.shutOut, Bool.and_eq_true, decide_eq_true_eq, and_assoc, book]

def ladder : List (BookCall Unit) :=
  (List.range 64).map fun i : Nat =>
    ⟨{ side := 1, quantity := 1, price := 200 - (i : Int), seqNum := i }, (), none, 0, 0, 0⟩

def repeatedBid : ParsedOrder := { side := 1, quantity := 1, price := 137, seqNum := 64 }

theorem residual_rests_one_level :
    NothingLost .buy repeatedBid (orderBookAfter [] (ladder.drop 63))
      ((orderBookAfter [] (ladder.drop 63)).submitOrder repeatedBid () none 0 0 0) :=
  (residual_rests_iff [] (ladder.drop 63) repeatedBid .buy (by decide) () none 0 0 0).mpr
    (by decide +kernel)

-- The 64th level holds one order of 32, and a second one at its price is dropped whole.
theorem residual_lost_full_ladder :
    ¬ NothingLost .buy repeatedBid (orderBookAfter [] ladder)
      ((orderBookAfter [] ladder).submitOrder repeatedBid () none 0 0 0) := by
  rw [nothingLost_iff (orderBookAfter_ok [] ladder) (by decide) () none 0 0 0]
  simp only [not_not]
  decide +kernel

end HftFixEngine.Matching
