import HftFixEngine.Matching.ZeroAllocReport
import Mathlib.Algebra.Order.BigOperators.Group.List

set_option autoImplicit false

namespace HftFixEngine.Matching

open Protocol Word Consume

variable {τ : Type}

abbrev tradeBatchSize : Nat := 16

-- The book with the report buffer and the trade counter its caller keeps across orders.
structure Session (τ : Type) where
  book : ZeroAllocHftOrderBook τ
  tradeBatch : Nat → ZeroAllocTrade := fun _ => {}
  tradeCounter : Nat := 0

structure Arrival (τ : Type) where
  order : ParsedOrder
  tag : τ
  timestampNs : Nat

namespace Session

def submit (session : Session τ) (arrival : Arrival τ) : ZeroAllocHftOrderBook.Submitted τ :=
  session.book.submitOrder arrival.order arrival.tag (some session.tradeBatch) tradeBatchSize
    session.tradeCounter arrival.timestampNs

def next (session : Session τ) (arrival : Arrival τ) : Session τ :=
  let done := session.submit arrival
  { book := done.book
    tradeBatch := done.outTrades.getD session.tradeBatch
    tradeCounter := done.tradeCounter }

def after [Inhabited τ] (symbol : Bytes) (arrivals : List (Arrival τ)) : Session τ :=
  arrivals.foldl next { book := ZeroAllocHftOrderBook.create symbol }

end Session

def ZeroAllocHftOrderBook.reach (book : ZeroAllocHftOrderBook τ) (d : Direction)
    (order : ParsedOrder) : List (BookOrder τ) :=
  eligible (fun passive => d.priceLimitReached order.price passive.price) (book.opposite d).orders

-- The order meets at most as many resting orders as the buffer has slots.
def ZeroAllocHftOrderBook.fits (book : ZeroAllocHftOrderBook τ) (order : ParsedOrder) : Prop :=
  ∀ d, Direction.ofSide order.side = some d →
    (book.reach d order).length ≤ tradeBatchSize ∨
      toUint32 order.quantity ≤
        (((book.reach d order).take tradeBatchSize).map BookOrder.remainingQty).sum

def increase (before after : Nat) : Nat := u64 (after + (2 ^ 64 - before))

structure EveryFillReported (session : Session τ) (arrival : Arrival τ) : Prop where
  count : (session.submit arrival).tradesGenerated =
    increase session.book.totalTrades (session.submit arrival).book.totalTrades
  volume : ((Slots.first (session.next arrival).tradeBatch
      (session.submit arrival).tradesGenerated).map ZeroAllocTrade.matchQty).sum =
    increase session.book.totalVolume (session.submit arrival).book.totalVolume
  ids : (Slots.first (session.next arrival).tradeBatch
      (session.submit arrival).tradesGenerated).map ZeroAllocTrade.tradeId =
    (List.range (session.submit arrival).tradesGenerated).map fun i =>
      u64 (session.tradeCounter + i + 1)

theorem foldl_record_counts (aggressor : Aggressor τ) (fills : List (BookOrder τ × Nat))
    (exec : Execution τ) (trades : exec.totalTrades < 2 ^ 64) (volume : exec.totalVolume < 2 ^ 64) :
    (fills.foldl aggressor.record exec).totalTrades = u64 (exec.totalTrades + fills.length) ∧
      (fills.foldl aggressor.record exec).totalVolume =
        u64 (exec.totalVolume + (fills.map Prod.snd).sum) := by
  induction fills generalizing exec with
  | nil => exact ⟨(Nat.mod_eq_of_lt trades).symm, (Nat.mod_eq_of_lt volume).symm⟩
  | cons fill fills ih =>
      have totals : (aggressor.record exec fill).totalTrades = u64 (exec.totalTrades + 1) ∧
          (aggressor.record exec fill).totalVolume = u64 (exec.totalVolume + fill.2) := by
        simp [Aggressor.record]
      have later := ih (aggressor.record exec fill) (by rw [totals.1]; exact Nat.mod_lt _ (by simp))
        (by rw [totals.2]; exact Nat.mod_lt _ (by simp))
      rw [totals.1, totals.2] at later
      rw [List.foldl_cons, later.1, later.2]
      simp only [u64, List.length_cons, List.map_cons, List.sum_cons]
      omega

structure SessionOk (session : Session τ) : Prop where
  bookOk : BookOk session.book
  trades_lt : session.book.totalTrades < 2 ^ 64
  volume_lt : session.book.totalVolume < 2 ^ 64
  counter_lt : session.tradeCounter < 2 ^ 64

structure Booked (session : Session τ) (arrival : Arrival τ) (fills : List (BookOrder τ × Nat)) :
    Prop where
  count : (session.submit arrival).tradesGenerated = min tradeBatchSize fills.length
  trades : (session.submit arrival).book.totalTrades =
    u64 (session.book.totalTrades + fills.length)
  volume : (session.submit arrival).book.totalVolume =
    u64 (session.book.totalVolume + (fills.map Prod.snd).sum)
  counter : (session.submit arrival).tradeCounter =
    u64 (session.tradeCounter + min tradeBatchSize fills.length)
  qtys : (Slots.first (session.next arrival).tradeBatch
      (session.submit arrival).tradesGenerated).map ZeroAllocTrade.matchQty =
    (fills.take (session.submit arrival).tradesGenerated).map Prod.snd
  ids : (Slots.first (session.next arrival).tradeBatch
      (session.submit arrival).tradesGenerated).map ZeroAllocTrade.tradeId =
    (List.range (session.submit arrival).tradesGenerated).map fun i =>
      u64 (session.tradeCounter + i + 1)
  length_le : fills.length ≤ (fills.map Prod.snd).sum
  sum_lt : (fills.map Prod.snd).sum < 2 ^ 32
  fits : session.book.fits arrival.order ↔ fills.length ≤ tradeBatchSize

namespace Session

variable {session : Session τ} (ok : SessionOk session) (arrival : Arrival τ)

include ok

theorem booked_of_other (other : Direction.ofSide arrival.order.side = none) :
    Booked session arrival [] := by
  have ignored : session.submit arrival = _ := session.book.submitOrder_of_other arrival.order
    arrival.tag (some session.tradeBatch) tradeBatchSize session.tradeCounter arrival.timestampNs
    other
  refine ⟨?_, ?_, ?_, ?_, ?_, ?_, by simp, by simp, ?_⟩
  next =>
    rw [ignored]
    rfl
  next =>
    rw [ignored]
    exact (Nat.mod_eq_of_lt ok.trades_lt).symm
  next =>
    rw [ignored]
    exact (Nat.mod_eq_of_lt ok.volume_lt).symm
  next =>
    rw [ignored]
    exact (Nat.mod_eq_of_lt ok.counter_lt).symm
  next => simp [ignored]
  next => simp [ignored]
  next => simp [ZeroAllocHftOrderBook.fits, other]

theorem booked_of_side {d : Direction} (side : Direction.ofSide arrival.order.side = some d) :
    Booked session arrival (session.book.outcome d arrival.order).fills := by
  obtain ⟨swept, effect⟩ := session.book.submitOrder_effect arrival.order arrival.tag
    (some session.tradeBatch) tradeBatchSize session.tradeCounter arrival.timestampNs side
    (ok.bookOk.oppositeOk d)
  let fills := (session.book.outcome d arrival.order).fills
  let aggressor :=
    session.book.aggressor d arrival.order arrival.tag tradeBatchSize arrival.timestampNs
  let start := session.book.execution arrival.order (some session.tradeBatch) session.tradeCounter
  obtain ⟨next, reported⟩ := aggressor.foldl_record_reported start rfl rfl fills
  obtain ⟨trades, volume⟩ := foldl_record_counts aggressor fills start ok.trades_lt ok.volume_lt
  have result : session.submit arrival = _ := effect.result
  have conserved := session.book.outcome_fills_add_unmet d arrival.order
  have small := toUint32_lt arrival.order.quantity
  have batch : (session.next arrival).tradeBatch = next := by
    simp only [Session.next, result]
    rw [reported.out]
    rfl
  have positive : ∀ fill ∈ fills, 0 < fill.2 := by
    apply fills_positive
    exact fun passive member => ((ok.bookOk.oppositeOk d).mem_orders member).1
  refine ⟨?_, ?_, ?_, ?_, ?_, ?_, ?_, by omega, ?_⟩
  next =>
    rw [result]
    exact reported.count
  next =>
    rw [result]
    exact trades
  next =>
    rw [result]
    exact volume
  next =>
    have counter := reported.counter
    rw [reported.count] at counter
    rw [result]
    refine counter.trans ?_
    split_ifs with none
    next =>
      rw [show min tradeBatchSize fills.length = 0 from none]
      exact (Nat.mod_eq_of_lt ok.counter_lt).symm
    next => rfl
  next =>
    rw [batch, result]
    exact reported.view ZeroAllocTrade.matchQty Prod.snd fun fill _ old id => rfl
  next =>
    rw [batch, result]
    exact reported.ids
  next =>
    rw [← List.length_map Prod.snd]
    refine List.length_le_sum_of_one_le _ ?_
    intro qty member
    obtain ⟨fill, inside, rfl⟩ := List.mem_map.mp member
    exact positive fill inside
  next =>
    rw [show fills.length ≤ tradeBatchSize ↔ _ from consume_fills_length _ _ _]
    constructor
    next =>
      intro fits
      exact fits d side
    next =>
      intro fits e other
      obtain rfl : d = e := Option.some.inj (side.symm.trans other)
      exact fits

theorem submit_booked : ∃ fills, Booked session arrival fills := by
  cases side : Direction.ofSide arrival.order.side with
  | none => exact ⟨[], booked_of_other ok arrival side⟩
  | some d => exact ⟨_, booked_of_side ok arrival side⟩

theorem next_ok : SessionOk (session.next arrival) := by
  obtain ⟨fills, booked⟩ := submit_booked ok arrival
  refine ⟨ok.bookOk.submitOrder _ _ _ _ _ _, ?_, ?_, ?_⟩
  next => exact booked.trades ▸ Nat.mod_lt _ (by simp)
  next => exact booked.volume ▸ Nat.mod_lt _ (by simp)
  next =>
    change (session.submit arrival).tradeCounter < 2 ^ 64
    exact booked.counter ▸ Nat.mod_lt _ (by simp)

theorem everyFillReported_iff :
    EveryFillReported session arrival ↔ session.book.fits arrival.order := by
  obtain ⟨fills, booked⟩ := submit_booked ok arrival
  have length := booked.length_le
  have small := booked.sum_lt
  have trades := ok.trades_lt
  have volume := ok.volume_lt
  rw [booked.fits]
  constructor
  next =>
    intro every
    have count := every.count
    rw [booked.count, booked.trades] at count
    simp only [increase, u64] at count
    omega
  next =>
    intro fits
    have all : (session.submit arrival).tradesGenerated = fills.length := by
      rw [booked.count]
      omega
    refine ⟨?_, ?_, booked.ids⟩
    next =>
      rw [all, booked.trades]
      simp only [increase, u64]
      omega
    next =>
      rw [booked.qtys, all, List.take_length, booked.volume]
      simp only [increase, u64]
      omega

theorem counter_eq_total_iff (together : session.tradeCounter = session.book.totalTrades) :
    (session.next arrival).tradeCounter = (session.next arrival).book.totalTrades ↔
      session.book.fits arrival.order := by
  obtain ⟨fills, booked⟩ := submit_booked ok arrival
  have length := booked.length_le
  have small := booked.sum_lt
  have trades := ok.trades_lt
  rw [booked.fits]
  change (session.submit arrival).tradeCounter = (session.submit arrival).book.totalTrades ↔ _
  rw [booked.counter, booked.trades, together]
  simp only [u64]
  omega

omit ok in
theorem after_take_succ [Inhabited τ] (symbol : Bytes) {arrivals : List (Arrival τ)} {k : Nat}
    (within : k < arrivals.length) :
    after symbol (arrivals.take (k + 1)) =
      (after symbol (arrivals.take k)).next (arrivals.get ⟨k, within⟩) := by
  rw [List.take_succ_eq_append_getElem within, after, List.foldl_append]
  rfl

omit ok in
theorem after_ok [Inhabited τ] (symbol : Bytes) (arrivals : List (Arrival τ)) :
    SessionOk (after symbol arrivals) := by
  unfold after
  refine List.foldlRecOn arrivals _ ?_ fun session ok arrival _ => next_ok ok arrival
  exact ⟨create_ok symbol, Nat.two_pow_pos 64, Nat.two_pow_pos 64, Nat.two_pow_pos 64⟩

end Session

theorem every_fill_reported_iff [Inhabited τ] (symbol : Bytes) (arrivals : List (Arrival τ)) :
    (∀ arrival, EveryFillReported (Session.after symbol arrivals) arrival ↔
      (Session.after symbol arrivals).book.fits arrival.order) ∧
    ((∀ k ≤ arrivals.length,
        (Session.after symbol (arrivals.take k)).tradeCounter =
          (Session.after symbol (arrivals.take k)).book.totalTrades) ↔
      ∀ k (within : k < arrivals.length),
        (Session.after symbol (arrivals.take k)).book.fits
          (arrivals.get ⟨k, within⟩).order) := by
  refine ⟨Session.everyFillReported_iff (Session.after_ok symbol arrivals), ?_, ?_⟩
  next =>
    intro together k within
    have ok := Session.after_ok symbol (arrivals.take k)
    refine (Session.counter_eq_total_iff ok _ (together k (Nat.le_of_lt within))).mp ?_
    rw [← Session.after_take_succ symbol within]
    exact together (k + 1) within
  next =>
    intro fits k
    induction k with
    | zero => exact fun _ => rfl
    | succ k ih =>
        intro within
        have ok := Session.after_ok symbol (arrivals.take k)
        rw [Session.after_take_succ symbol within]
        exact (Session.counter_eq_total_iff ok _ (ih (Nat.le_of_lt within))).mpr (fits k within)

def seventeenAsks : List (Arrival Unit) :=
  (List.range 17).map fun i : Nat =>
    ⟨{ side := 2, quantity := 1, price := 100, seqNum := i }, (), 0⟩

def buySeventeen : Arrival Unit :=
  ⟨{ side := 1, quantity := 17, price := 100, seqNum := 17 }, (), 0⟩

theorem fill_unreported_seventeen :
    ¬ EveryFillReported (Session.after [] seventeenAsks) buySeventeen ∧
      (Session.after [] (seventeenAsks ++ [buySeventeen])).tradeCounter = 16 ∧
      (Session.after [] (seventeenAsks ++ [buySeventeen])).book.totalTrades = 17 := by
  refine ⟨?_, by decide +kernel, by decide +kernel⟩
  intro every
  exact absurd every.count (by decide +kernel)

end HftFixEngine.Matching
