import HftFixEngine.Matching.ZeroAllocLevel
import Mathlib.Data.List.Nodup

set_option autoImplicit false

namespace HftFixEngine.Matching

open Protocol Word Consume SortedInsert

variable {τ : Type}

namespace LevelStore

def activePtrs (store : LevelStore τ) : List Nat := Slots.first store.levels store.levelCount

def freePtrs (store : LevelStore τ) : List Nat := Slots.first store.freeList store.freeCount

def activeLevels (store : LevelStore τ) : List (PriceLevel τ) := store.activePtrs.map store.pool

def orders (store : LevelStore τ) : List (BookOrder τ) :=
  store.activeLevels.flatMap PriceLevel.queue

end LevelStore

structure StoreOk (d : Direction) (store : LevelStore τ) : Prop where
  pointers : (store.activePtrs ++ store.freePtrs).Perm (List.range maxBookLevels)
  sorted : store.activeLevels.Pairwise fun a b => d.better a.price b.price = true
  levels : ∀ level ∈ store.activeLevels, LevelOk d level ∧ 0 < level.orderCount

namespace StoreOk

variable {d : Direction} {store : LevelStore τ} (ok : StoreOk d store)

include ok

theorem counts : store.levelCount + store.freeCount = maxBookLevels := by
  have lengths := ok.pointers.length_eq
  simpa [LevelStore.activePtrs, LevelStore.freePtrs] using lengths

theorem nodup : (store.activePtrs ++ store.freePtrs).Nodup :=
  ok.pointers.nodup_iff.mpr List.nodup_range

theorem ptr_lt {ptr : Nat} (member : ptr ∈ store.activePtrs ++ store.freePtrs) :
    ptr < maxBookLevels :=
  List.mem_range.mp (ok.pointers.mem_iff.mp member)

theorem mem_orders {order : BookOrder τ} (member : order ∈ store.orders) :
    0 < order.remainingQty ∧ order.side = d.code := by
  obtain ⟨level, active, inside⟩ := List.mem_flatMap.mp member
  have resting := (ok.levels level active).1.resting order inside
  exact ⟨resting.1, resting.2.2⟩

end StoreOk

theorem pool_map_update {ptrs : List Nat} {ptr : Nat} (absent : ptr ∉ ptrs)
    (pool : Nat → PriceLevel τ) (level : PriceLevel τ) :
    ptrs.map (Function.update pool ptr level) = ptrs.map pool := by
  apply List.map_congr_left
  intro other member
  exact Function.update_of_ne (fun (same : other = ptr) => absent (same ▸ member)) _ _

structure FirstLevel (store : LevelStore τ) (ptr : Nat) (behind : List Nat) : Prop where
  best : store.levels 0 = ptr
  ptrs : store.activePtrs = ptr :: behind

theorem firstLevel_of_pos {store : LevelStore τ} (some : 0 < store.levelCount) :
    FirstLevel store (store.levels 0)
      (Slots.first (fun i => store.levels (i + 1)) (store.levelCount - 1)) := by
  obtain ⟨n, count⟩ : ∃ n, store.levelCount = n + 1 := ⟨store.levelCount - 1, by omega⟩
  exact ⟨rfl, by simp [LevelStore.activePtrs, count, Slots.first_cons]⟩

namespace StoreOk

variable {d : Direction} {store : LevelStore τ} {ptr : Nat} {behind : List Nat}

theorem levelAt_zero (first : FirstLevel store ptr behind) :
    store.activeLevels = store.pool ptr :: behind.map store.pool := by
  simp [LevelStore.activeLevels, first.ptrs]

theorem orders_eq (first : FirstLevel store ptr behind) :
    store.orders = (store.pool ptr).queue ++ (behind.map store.pool).flatMap PriceLevel.queue := by
  simp [LevelStore.orders, levelAt_zero first]

theorem ptr_notMem (ok : StoreOk d store) (first : FirstLevel store ptr behind) :
    ptr ∉ behind ++ store.freePtrs := by
  have distinct := ok.nodup
  rw [first.ptrs, List.cons_append] at distinct
  exact (List.nodup_cons.mp distinct).1

theorem levelCount_pos (first : FirstLevel store ptr behind) : 0 < store.levelCount := by
  have length : store.activePtrs.length = store.levelCount := by simp [LevelStore.activePtrs]
  rw [first.ptrs] at length
  simp only [List.length_cons] at length
  omega

-- While a level is active the free list is not full, so it takes what is released.
theorem releaseLevel_eq (ok : StoreOk d store) (active : ptr ∈ store.activePtrs)
    (pool : Nat → PriceLevel τ) :
    LevelStore.releaseLevel { store with pool } ptr =
      { store with
        pool
        freeList := Function.update store.freeList store.freeCount ptr
        freeCount := store.freeCount + 1 } := by
  have counts := ok.counts
  have some : 0 < store.levelCount := by
    have length : 0 < store.activePtrs.length := List.length_pos_of_mem active
    simpa [LevelStore.activePtrs] using length
  have room : store.freeCount < maxBookLevels := by omega
  have notNull : ptr ≠ nullptr := Nat.ne_of_lt (ok.ptr_lt (List.mem_append_left _ active))
  simp [LevelStore.releaseLevel, room, notNull]

theorem releaseLevel_freePtrs (ok : StoreOk d store) (active : ptr ∈ store.activePtrs) :
    (store.releaseLevel ptr).freePtrs = store.freePtrs ++ [ptr] := by
  rw [ok.releaseLevel_eq active store.pool]
  exact Slots.first_push store.freeList store.freeCount ptr

section Replace

variable (ok : StoreOk d store) (first : FirstLevel store ptr behind) (level : PriceLevel τ)

include ok first

theorem modify_activeLevels :
    (store.modifyLevel ptr fun _ => level).activeLevels = level :: behind.map store.pool := by
  have ptrs : (store.modifyLevel ptr fun _ => level).activePtrs = ptr :: behind := first.ptrs
  have absent : ptr ∉ behind := fun member => ok.ptr_notMem first (List.mem_append_left _ member)
  simp only [LevelStore.activeLevels, ptrs, List.map_cons]
  congr 1
  next => exact Function.update_self _ _ _
  next => exact pool_map_update absent store.pool level

theorem modify_first (levelOk : LevelOk d level) (some : 0 < level.orderCount)
    (price : level.price = (store.pool ptr).price) :
    StoreOk d (store.modifyLevel ptr fun _ => level) := by
  have active := ok.modify_activeLevels first level
  have sorted := ok.sorted
  have levels := ok.levels
  rw [levelAt_zero first] at sorted levels
  refine ⟨ok.pointers, ?_, ?_⟩
  next =>
    rw [active]
    rw [List.pairwise_cons] at sorted ⊢
    exact ⟨fun other member => price ▸ sorted.1 other member, sorted.2⟩
  next =>
    rw [active]
    intro other member
    rcases List.mem_cons.mp member with rfl | later
    next => exact ⟨levelOk, some⟩
    next => exact levels other (List.mem_cons_of_mem _ later)

-- The best level is empty: its pointer goes to the free list, which has room for it.
theorem release_first :
    let next := ((store.modifyLevel ptr fun _ => level).releaseLevel ptr).shiftLevelsLeft
    next.activePtrs = behind ∧ next.freePtrs = store.freePtrs ++ [ptr] ∧
      next.activeLevels = behind.map store.pool := by
  have active := levelCount_pos first
  have absent : ptr ∉ behind := fun member => ok.ptr_notMem first (List.mem_append_left _ member)
  have member : ptr ∈ store.activePtrs := by simp [first.ptrs]
  have released := ok.releaseLevel_eq member (Function.update store.pool ptr level)
  have ptrs : (((store.modifyLevel ptr fun _ => level).releaseLevel ptr).shiftLevelsLeft).activePtrs
      = behind := by
    have shifted := Slots.first_shiftLeft store.levels (store.levelCount - 1)
    rw [show store.levelCount - 1 + 1 = store.levelCount by omega] at shifted
    rw [LevelStore.modifyLevel, released]
    exact shifted.trans (congrArg List.tail first.ptrs)
  refine ⟨ptrs, ?_, ?_⟩
  next =>
    rw [LevelStore.modifyLevel, released]
    exact Slots.first_push store.freeList store.freeCount ptr
  next =>
    rw [LevelStore.activeLevels, ptrs, LevelStore.modifyLevel, released]
    exact pool_map_update absent store.pool level

theorem releaseFirst_ok :
    StoreOk d ((store.modifyLevel ptr fun _ => level).releaseLevel ptr).shiftLevelsLeft := by
  obtain ⟨ptrs, free, active⟩ := ok.release_first first level
  have sorted := ok.sorted
  have levels := ok.levels
  rw [levelAt_zero first] at sorted levels
  refine ⟨?_, ?_, ?_⟩
  next =>
    rw [ptrs, free]
    have shared := ok.pointers
    rw [first.ptrs] at shared
    refine List.Perm.trans ?_ shared
    rw [← List.append_assoc, List.cons_append]
    exact List.perm_append_singleton ptr _
  next =>
    rw [active]
    exact (List.pairwise_cons.mp sorted).2
  next =>
    rw [active]
    exact fun other member => levels other (List.mem_cons_of_mem _ member)

end Replace

end StoreOk

namespace Aggressor

variable (aggressor : Aggressor τ) {d : Direction} {store : LevelStore τ} {exec : Execution τ}

def refused (passive : BookOrder τ) : Bool :=
  aggressor.direction.priceLimitReached aggressor.order.price passive.price

theorem matchBestLevel_eq (ok : StoreOk d store) {ptr : Nat} {behind : List Nat}
    (first : FirstLevel store ptr behind) (small : exec.remainingQty < 2 ^ 32) :
    let outcome := consume orderSupply (fun _ => false) exec.remainingQty (store.pool ptr).queue
    ∃ next, aggressor.matchBestLevel (store, exec) =
        (next, outcome.fills.foldl aggressor.record exec) ∧
      StoreOk d next ∧
      next.orders = outcome.rest ++ (behind.map store.pool).flatMap PriceLevel.queue ∧
      (next.levelCount < store.levelCount ∨ outcome.unmet = 0) := by
  intro outcome
  have best : store.pool ptr ∈ store.activeLevels := by simp [StoreOk.levelAt_zero first]
  obtain ⟨level, matching, levelOk, price, queue⟩ :=
    aggressor.matchLevel_eq (ok.levels _ best).1 small
  have count : level.orderCount = outcome.rest.length := by rw [← queue, level.queue_length]
  have active := StoreOk.levelCount_pos first
  simp only [matchBestLevel, first.best, matching]
  by_cases empty : level.orderCount = 0
  next =>
    rw [if_pos empty]
    have rest : outcome.rest = [] := by rw [← List.length_eq_zero_iff]; omega
    refine ⟨_, rfl, ok.releaseFirst_ok first level, ?_, Or.inl ?_⟩
    next => rw [rest, LevelStore.orders, (ok.release_first first level).2.2, List.nil_append]
    next =>
      have released :
          ((store.modifyLevel ptr fun _ => level).releaseLevel ptr).levelCount = store.levelCount := by
        simp only [LevelStore.releaseLevel]
        split <;> rfl
      simp only [LevelStore.shiftLevelsLeft, released]
      omega
  next =>
    rw [if_neg empty]
    refine ⟨_, rfl, ok.modify_first first level levelOk (by omega) price, ?_, Or.inr ?_⟩
    next => rw [LevelStore.orders, ok.modify_activeLevels first level, List.flatMap_cons, queue]
    next =>
      have left : outcome.rest ≠ [] := by
        rw [← List.length_pos_iff]
        omega
      exact consume_met _ _ (fun _ _ => rfl) left

theorem sideGoesOn_iff :
    aggressor.sideGoesOn (store, exec) = true ↔
      0 < store.levelCount ∧ 0 < exec.remainingQty ∧
        aggressor.direction.priceLimitReached aggressor.order.price (store.levelAt 0).price
          = false := by
  simp [sideGoesOn, and_assoc]

theorem queue_accepted (ok : StoreOk d store) {ptr : Nat} {behind : List Nat}
    (first : FirstLevel store ptr behind)
    (within : aggressor.direction.priceLimitReached aggressor.order.price (store.levelAt 0).price
      = false) :
    ∀ passive ∈ (store.pool ptr).queue, aggressor.refused passive = false := by
  have best : store.pool ptr ∈ store.activeLevels := by simp [StoreOk.levelAt_zero first]
  intro passive member
  have price := ((ok.levels _ best).1.resting passive member).2.1
  rw [refused, price, ← first.best]
  exact within

theorem remainingQty_after (need : Nat) (wanted : exec.remainingQty = need)
    (queue : List (BookOrder τ)) (refused : BookOrder τ → Bool) :
    ((consume orderSupply refused need queue).fills.foldl aggressor.record exec).remainingQty =
      (consume orderSupply refused need queue).unmet := by
  have conserved := consume_conserves orderSupply refused need queue
  rw [foldl_record_remainingQty, wanted]
  omega

theorem consume_of_stopped (ok : StoreOk d store)
    (stopped : aggressor.sideGoesOn (store, exec) = false) :
    consume orderSupply aggressor.refused exec.remainingQty store.orders =
      ⟨[], store.orders, exec.remainingQty⟩ := by
  by_cases none : store.levelCount = 0
  next =>
    have empty : store.orders = [] := by
      simp [LevelStore.orders, LevelStore.activeLevels, LevelStore.activePtrs, none]
    simp [empty]
  next =>
    by_cases met : exec.remainingQty = 0
    next => simp [met]
    next =>
      have first := firstLevel_of_pos (Nat.pos_of_ne_zero none)
      have beyond : aggressor.direction.priceLimitReached aggressor.order.price
          (store.levelAt 0).price = true := by
        by_contra within
        have going := aggressor.sideGoesOn_iff.mpr
          ⟨Nat.pos_of_ne_zero none, Nat.pos_of_ne_zero met, by simpa using within⟩
        simp [going] at stopped
      have best : store.pool (store.levels 0) ∈ store.activeLevels := by
        simp [StoreOk.levelAt_zero first]
      obtain ⟨levelOk, some⟩ := ok.levels _ best
      have whole := PriceLevel.queue_eq_front _ some levelOk.head_lt
      have front := (levelOk.resting _ (by rw [whole]; exact List.mem_cons_self)).2.1
      rw [StoreOk.orders_eq first, whole, List.cons_append]
      apply consume_refused
      rw [refused, front]
      exact beyond

theorem run_matchBestLevel (fuel : Nat) (ok : StoreOk d store) (small : exec.remainingQty < 2 ^ 32)
    (enough : store.levelCount ≤ fuel) :
    let outcome := consume orderSupply aggressor.refused exec.remainingQty store.orders
    ∃ next, Loop.run aggressor.sideGoesOn aggressor.matchBestLevel fuel (store, exec) =
        (next, outcome.fills.foldl aggressor.record exec) ∧
      StoreOk d next ∧ next.orders = outcome.rest := by
  induction fuel generalizing store exec with
  | zero =>
      have stopped : aggressor.sideGoesOn (store, exec) = false := by
        have none : store.levelCount = 0 := by omega
        simp [sideGoesOn, none]
      rw [aggressor.consume_of_stopped ok stopped]
      exact ⟨store, rfl, ok, rfl⟩
  | succ fuel ih =>
      by_cases going : aggressor.sideGoesOn (store, exec) = true
      next =>
        obtain ⟨some, wanted, within⟩ := aggressor.sideGoesOn_iff.mp going
        have first := firstLevel_of_pos some
        have accepted := aggressor.queue_accepted ok first within
        obtain ⟨next, step, nextOk, orders, progress⟩ := aggressor.matchBestLevel_eq ok first small
        rw [Loop.run_of_going fuel going, step, StoreOk.orders_eq first,
          consume_append _ _ _ accepted, consume_congr _ _ accepted]
        generalize before : consume orderSupply (fun _ => false) exec.remainingQty
          (store.pool (store.levels 0)).queue = outcome at *
        have left : (outcome.fills.foldl aggressor.record exec).remainingQty = outcome.unmet := by
          rw [← before]
          exact aggressor.remainingQty_after _ rfl _ _
        by_cases met : outcome.unmet = 0
        next =>
          rw [Loop.run_of_stopped fuel (by simp [sideGoesOn, left, met])]
          exact ⟨next, by simp [met], nextOk, by simp [met, orders]⟩
        next =>
          have used : outcome.rest = [] := by
            by_contra some
            rw [← before] at met some
            exact met (consume_met _ _ (fun _ _ => rfl) some)
          have bound : outcome.unmet ≤ exec.remainingQty := before ▸ consume_unmet_le _ _ _ _
          obtain ⟨final, run, finalOk, finalOrders⟩ :=
            ih nextOk (by rw [left]; omega) (by rcases progress with less | zero <;> omega)
          rw [used, List.nil_append] at orders
          rw [left, orders] at run finalOrders
          refine ⟨final, ?_, finalOk, ?_⟩
          next => rw [run, List.foldl_append]
          next =>
            rw [finalOrders]
            simp only [used, List.nil_append]
      next =>
        have stopped : aggressor.sideGoesOn (store, exec) = false := by simpa using going
        rw [Loop.run_of_stopped _ stopped, aggressor.consume_of_stopped ok stopped]
        exact ⟨store, rfl, ok, rfl⟩

end Aggressor

end HftFixEngine.Matching
