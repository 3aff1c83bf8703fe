import HftFixEngine.Matching.ZeroAllocHftOrderBook

set_option autoImplicit false

namespace HftFixEngine.Matching

open Protocol Word Consume

variable {τ : Type}

def orderSupply : Supply (BookOrder τ) where
  qty := BookOrder.remainingQty
  reduce := fun order n => { order with remainingQty := order.remainingQty - n }
  qty_reduce := fun _ _ => rfl

structure LevelOk (d : Direction) (level : PriceLevel τ) : Prop where
  count_le : level.orderCount ≤ maxOrdersPerLevel
  head_lt : level.headOrderIdx < maxOrdersPerLevel
  resting : ∀ order ∈ level.queue,
    0 < order.remainingQty ∧ order.price = level.price ∧ order.side = d.code
  cached : level.cachedTotalQty = u32 (level.queue.map BookOrder.remainingQty).sum

namespace PriceLevel

theorem queue_length (level : PriceLevel τ) : level.queue.length = level.orderCount := by
  simp [queue]

def behindFront (level : PriceLevel τ) : List (BookOrder τ) :=
  Slots.ring level.orders maxOrdersPerLevel ((level.headOrderIdx + 1) % maxOrdersPerLevel)
    (level.orderCount - 1)

theorem queue_eq_front (level : PriceLevel τ) (some : 0 < level.orderCount)
    (head : level.headOrderIdx < maxOrdersPerLevel) :
    level.queue = level.frontOrder :: level.behindFront := by
  obtain ⟨n, count⟩ : ∃ n, level.orderCount = n + 1 := ⟨level.orderCount - 1, by omega⟩
  simp [queue, count, Slots.ring_cons, Nat.mod_eq_of_lt head, frontOrder, behindFront]

def setFront (level : PriceLevel τ) (order : BookOrder τ) (cached : Nat) : PriceLevel τ :=
  { level with
    orders := Function.update level.orders level.headOrderIdx order, cachedTotalQty := cached }

theorem queue_setFront {level : PriceLevel τ} (some : 0 < level.orderCount)
    (count : level.orderCount ≤ maxOrdersPerLevel) (head : level.headOrderIdx < maxOrdersPerLevel)
    (order : BookOrder τ) (cached : Nat) :
    (level.setFront order cached).queue = order :: level.behindFront := by
  rw [queue_eq_front (level.setFront order cached) some head]
  simp only [frontOrder, behindFront, setFront, Function.update_self]
  congr 1
  nth_rewrite 1 [← Nat.mod_eq_of_lt head]
  exact Slots.ring_tail_update level.orders (by omega) order

theorem queue_popFrontOrder (level : PriceLevel τ) (some : 0 < level.orderCount) :
    level.popFrontOrder.queue = level.behindFront := by
  simp only [popFrontOrder, some, if_true, queue, behindFront]
  by_cases last : level.orderCount - 1 = 0
  next => simp [last]
  next => simp [last]

theorem popFrontOrder_head_lt {level : PriceLevel τ}
    (head : level.headOrderIdx < maxOrdersPerLevel) :
    level.popFrontOrder.headOrderIdx < maxOrdersPerLevel := by
  unfold popFrontOrder
  split
  next =>
    simp only
    split
    next => exact Nat.succ_pos 31
    next => exact Nat.mod_lt _ (Nat.succ_pos 31)
  next => exact head

theorem queue_pushBackOrder {level : PriceLevel τ} (room : level.orderCount < maxOrdersPerLevel)
    (id : Nat) (clOrdId : Bytes) (side price : Int) (qty timestampNs : Nat) (tag : τ) :
    ∃ chars, (level.pushBackOrder id clOrdId side price qty timestampNs tag).queue =
      level.queue ++
        [{ orderId := id, clOrdId := copySvToChar chars clOrdId (maxClOrdIdLen - 1)
           side, price, remainingQty := qty, timestampNs, active := true, tag }] := by
  simp only [pushBackOrder, room, if_true, queue]
  exact ⟨_, Slots.ring_push level.orders room _⟩

end PriceLevel

namespace Aggressor

section Report

variable (aggressor : Aggressor τ) (exec : Execution τ) (passive : BookOrder τ) (matchQty : Nat)

@[simp] theorem report_remainingQty :
    (aggressor.report exec passive matchQty).remainingQty = exec.remainingQty := by
  unfold report
  split <;> [rfl; (split_ifs <;> rfl)]

@[simp] theorem report_totalTrades :
    (aggressor.report exec passive matchQty).totalTrades = exec.totalTrades := by
  unfold report
  split <;> [rfl; (split_ifs <;> rfl)]

@[simp] theorem report_totalVolume :
    (aggressor.report exec passive matchQty).totalVolume = exec.totalVolume := by
  unfold report
  split <;> [rfl; (split_ifs <;> rfl)]

@[simp] theorem report_fills :
    (aggressor.report exec passive matchQty).fills = exec.fills := by
  unfold report
  split <;> [rfl; (split_ifs <;> rfl)]

end Report

@[simp] theorem record_remainingQty (aggressor : Aggressor τ) (exec : Execution τ)
    (fill : BookOrder τ × Nat) :
    (aggressor.record exec fill).remainingQty = exec.remainingQty - fill.2 := by
  simp [record]

theorem foldl_record_remainingQty (aggressor : Aggressor τ) (fills : List (BookOrder τ × Nat))
    (exec : Execution τ) :
    (fills.foldl aggressor.record exec).remainingQty =
      exec.remainingQty - (fills.map Prod.snd).sum := by
  induction fills generalizing exec with
  | nil => simp
  | cons fill fills ih => simp [ih, Nat.sub_sub]

theorem foldl_record_fills (aggressor : Aggressor τ) (fills : List (BookOrder τ × Nat))
    (exec : Execution τ) :
    (fills.foldl aggressor.record exec).fills = exec.fills ++ fills := by
  induction fills generalizing exec with
  | nil => simp
  | cons fill fills ih => simp [ih, record]

variable (aggressor : Aggressor τ) {d : Direction} {level : PriceLevel τ} {exec : Execution τ}

theorem matchFront_all (ok : LevelOk d level) (some : 0 < level.orderCount)
    (small : level.frontOrder.remainingQty < 2 ^ 32)
    (exhausted : level.frontOrder.remainingQty ≤ exec.remainingQty) :
    ∃ next, aggressor.matchFront (level, exec) =
        (next, aggressor.record exec (level.frontOrder, level.frontOrder.remainingQty)) ∧
      LevelOk d next ∧ next.price = level.price ∧ next.queue = level.behindFront ∧
      next.orderCount = level.orderCount - 1 := by
  let left : BookOrder τ := { level.frontOrder with remainingQty := 0 }
  let cached := u32 (level.cachedTotalQty + (2 ^ 32 - level.frontOrder.remainingQty))
  have queue := PriceLevel.queue_popFrontOrder (level.setFront left cached) some
  have tail : (level.setFront left cached).behindFront = level.behindFront := by
    have front := PriceLevel.queue_setFront some ok.count_le ok.head_lt left cached
    rw [PriceLevel.queue_eq_front (level.setFront left cached) some ok.head_lt] at front
    exact (List.cons.inj front).2
  have whole := PriceLevel.queue_eq_front level some ok.head_lt
  refine ⟨(level.setFront left cached).popFrontOrder, ?_, ?_, ?_, queue.trans tail, ?_⟩
  next => simp [matchFront, Nat.min_eq_right exhausted, PriceLevel.setFront, left, cached]
  next =>
    have orders := ok.resting
    have sum := ok.cached
    rw [whole] at orders sum
    have count := ok.count_le
    refine ⟨?_, ?_, ?_, ?_⟩
    next =>
      simp only [PriceLevel.popFrontOrder, PriceLevel.setFront, some, if_true]
      omega
    next => exact PriceLevel.popFrontOrder_head_lt ok.head_lt
    next =>
      rw [queue, tail]
      intro order member
      simp only [PriceLevel.popFrontOrder, PriceLevel.setFront, some, if_true]
      exact orders order (List.mem_cons_of_mem _ member)
    next =>
      rw [queue, tail]
      simp only [PriceLevel.popFrontOrder, PriceLevel.setFront, some, if_true, cached]
      rw [sum, List.map_cons, List.sum_cons,
        u32_sub (Nat.le_add_right _ _) (Nat.le_of_lt small), Nat.add_sub_cancel_left]
  next => simp [PriceLevel.popFrontOrder, PriceLevel.setFront, some]
  next => simp [PriceLevel.popFrontOrder, PriceLevel.setFront, some]

theorem matchFront_part (ok : LevelOk d level) (some : 0 < level.orderCount)
    (small : exec.remainingQty < 2 ^ 32)
    (left : exec.remainingQty < level.frontOrder.remainingQty) :
    ∃ next, aggressor.matchFront (level, exec) =
        (next, aggressor.record exec (level.frontOrder, exec.remainingQty)) ∧
      LevelOk d next ∧ next.price = level.price ∧ next.orderCount = level.orderCount ∧
      next.queue = orderSupply.reduce level.frontOrder exec.remainingQty :: level.behindFront := by
  let cached := u32 (level.cachedTotalQty + (2 ^ 32 - exec.remainingQty))
  have queue := PriceLevel.queue_setFront some ok.count_le ok.head_lt
    (orderSupply.reduce level.frontOrder exec.remainingQty) cached
  have whole := PriceLevel.queue_eq_front level some ok.head_lt
  refine ⟨level.setFront (orderSupply.reduce level.frontOrder exec.remainingQty) cached,
    ?_, ?_, rfl, rfl, queue⟩
  next =>
    have more : level.frontOrder.remainingQty - exec.remainingQty ≠ 0 := by omega
    simp [matchFront, Nat.min_eq_left (Nat.le_of_lt left), more, PriceLevel.setFront, orderSupply,
      cached]
  next =>
    have orders := ok.resting
    have sum := ok.cached
    rw [whole] at orders sum
    refine ⟨ok.count_le, ok.head_lt, ?_, ?_⟩
    next =>
      rw [queue]
      intro order member
      rcases List.mem_cons.mp member with rfl | later
      next =>
        have front := orders level.frontOrder (by simp)
        exact ⟨by simp only [orderSupply]; omega, front.2⟩
      next => exact orders order (List.mem_cons_of_mem _ later)
    next =>
      rw [queue]
      simp only [PriceLevel.setFront, cached, orderSupply, List.map_cons, List.sum_cons] at sum ⊢
      rw [sum, u32_sub (by omega) (Nat.le_of_lt small)]
      congr 1
      omega

-- The inner loop consumes the queue of the level: no price test is made inside it.
theorem run_matchFront (fuel : Nat) (ok : LevelOk d level) (small : exec.remainingQty < 2 ^ 32)
    (enough : level.orderCount ≤ fuel) :
    let outcome := consume orderSupply (fun _ => false) exec.remainingQty level.queue
    ∃ next, Loop.run levelGoesOn aggressor.matchFront fuel (level, exec) =
        (next, outcome.fills.foldl aggressor.record exec) ∧
      LevelOk d next ∧ next.price = level.price ∧ next.queue = outcome.rest := by
  induction fuel generalizing level exec with
  | zero =>
      have empty : level.queue = [] := by
        rw [← List.length_eq_zero_iff, PriceLevel.queue_length]
        omega
      refine ⟨level, ?_, ok, rfl, ?_⟩ <;> simp [Loop.run, empty]
  | succ fuel ih =>
      by_cases going : levelGoesOn (level, exec) = true
      next =>
        obtain ⟨some, wanted⟩ : 0 < level.orderCount ∧ 0 < exec.remainingQty := by
          simpa [levelGoesOn] using going
        rw [Loop.run_of_going fuel going]
        have whole := PriceLevel.queue_eq_front level some ok.head_lt
        by_cases exhausted : level.frontOrder.remainingQty ≤ exec.remainingQty
        next =>
          obtain ⟨next, step, nextOk, price, queue, count⟩ :=
            aggressor.matchFront_all ok some (Nat.lt_of_le_of_lt exhausted small) exhausted
          have nextSmall : (aggressor.record exec
              (level.frontOrder, level.frontOrder.remainingQty)).remainingQty < 2 ^ 32 := by
            rw [record_remainingQty]
            omega
          obtain ⟨final, run, finalOk, finalPrice, finalQueue⟩ := ih nextOk nextSmall (by omega)
          rw [queue, record_remainingQty] at run finalQueue
          rw [whole, consume_all _ _ _ wanted rfl exhausted]
          exact ⟨final, by rw [step, run]; rfl, finalOk, finalPrice.trans price, finalQueue⟩
        next =>
          have left : exec.remainingQty < level.frontOrder.remainingQty := by omega
          obtain ⟨next, step, nextOk, price, count, queue⟩ :=
            aggressor.matchFront_part ok some small left
          rw [whole, consume_part _ _ _ wanted rfl left]
          refine ⟨next, ?_, nextOk, price, queue⟩
          rw [step, Loop.run_of_stopped fuel (by simp [levelGoesOn])]
          rfl
      next =>
        have stopped : levelGoesOn (level, exec) = false := by simpa using going
        rw [Loop.run_of_stopped _ stopped]
        have ended : level.queue = [] ∨ exec.remainingQty = 0 := by
          rw [← List.length_eq_zero_iff, PriceLevel.queue_length]
          simp only [levelGoesOn, Bool.and_eq_false_iff, decide_eq_false_iff_not] at stopped
          omega
        rcases ended with empty | met
        next => exact ⟨level, by simp [empty], ok, rfl, by simp [empty]⟩
        next => exact ⟨level, by simp [met], ok, rfl, by simp [met]⟩

theorem matchLevel_eq (ok : LevelOk d level) (small : exec.remainingQty < 2 ^ 32) :
    let outcome := consume orderSupply (fun _ => false) exec.remainingQty level.queue
    ∃ next, aggressor.matchLevel level exec =
        (next, outcome.fills.foldl aggressor.record exec) ∧
      LevelOk d next ∧ next.price = level.price ∧ next.queue = outcome.rest :=
  aggressor.run_matchFront level.orderCount ok small (Nat.le_refl _)

end Aggressor

end HftFixEngine.Matching
