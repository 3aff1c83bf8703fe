import HftFixEngine.Matching.ZeroAllocStore

set_option autoImplicit false

namespace HftFixEngine.Matching

open Protocol Word Consume SortedInsert

variable {τ : Type}

def residualNode (order : ParsedOrder) (qty timestampNs : Nat) (tag : τ) (chars : Bytes) :
    BookOrder τ :=
  { orderId := order.seqNum
    clOrdId := copySvToChar chars order.clOrdId (maxClOrdIdLen - 1)
    side := order.side, price := order.price, remainingQty := qty, timestampNs, active := true, tag }

def pushResidual (order : ParsedOrder) (qty timestampNs : Nat) (tag : τ) (level : PriceLevel τ) :
    PriceLevel τ :=
  level.pushBackOrder order.seqNum order.clOrdId order.side order.price qty timestampNs tag

section Push

variable {d : Direction} {order : ParsedOrder} {qty : Nat} (timestampNs : Nat) (tag : τ)
    {level : PriceLevel τ}

theorem pushResidual_full (full : ¬ level.orderCount < maxOrdersPerLevel) :
    pushResidual order qty timestampNs tag level = level := by
  simp [pushResidual, PriceLevel.pushBackOrder, full]

theorem pushResidual_ok (ok : LevelOk d level) (room : level.orderCount < maxOrdersPerLevel)
    (side : order.side = d.code) (price : level.price = order.price) (positive : 0 < qty) :
    LevelOk d (pushResidual order qty timestampNs tag level) ∧
      (pushResidual order qty timestampNs tag level).price = order.price ∧
      0 < (pushResidual order qty timestampNs tag level).orderCount ∧
      ∃ chars, (pushResidual order qty timestampNs tag level).queue =
        level.queue ++ [residualNode order qty timestampNs tag chars] := by
  obtain ⟨chars, queue⟩ := PriceLevel.queue_pushBackOrder room order.seqNum order.clOrdId
    order.side order.price qty timestampNs tag
  have samePrice : (pushResidual order qty timestampNs tag level).price = order.price := by
    simpa [pushResidual, PriceLevel.pushBackOrder, room] using price
  have count : (pushResidual order qty timestampNs tag level).orderCount = level.orderCount + 1 := by
    simp [pushResidual, PriceLevel.pushBackOrder, room]
  refine ⟨⟨?_, ?_, ?_, ?_⟩, samePrice, by omega, chars, queue⟩
  next => omega
  next => simpa [pushResidual, PriceLevel.pushBackOrder, room] using ok.head_lt
  next =>
    rw [pushResidual, queue]
    intro resting member
    rcases List.mem_append.mp member with old | new
    next =>
      have kept := ok.resting resting old
      exact ⟨kept.1, kept.2.1.trans (price.trans samePrice.symm), kept.2.2⟩
    next =>
      obtain rfl := List.mem_singleton.mp new
      exact ⟨positive, samePrice.symm, side⟩
  next =>
    rw [pushResidual, queue, List.map_append, List.sum_append]
    simp only [PriceLevel.pushBackOrder, room, if_true, ok.cached, List.map_cons, List.map_nil,
      List.sum_cons, List.sum_nil, Nat.add_zero]
    exact u32_add _ _

end Push

theorem emptyLevel_ok {d : Direction} {level : PriceLevel τ} (price : Int) :
    LevelOk d { level.reset with price := price } := by
  refine ⟨Nat.zero_le _, Nat.succ_pos 31, ?_, rfl⟩
  intro order member
  exact absurd member List.not_mem_nil

namespace LevelStore

theorem activeLevels_eq (store : LevelStore τ) :
    store.activeLevels = Slots.first store.levelAt store.levelCount :=
  Slots.first_map _ _ _

def queueAt (store : LevelStore τ) (price : Int) : List (BookOrder τ) :=
  match store.activeLevels.find? fun level => level.price = price with
  | some level => level.queue
  | none => []

-- The branch of `add_to_book` that opens a level, once its position is known.
def insertLevel (store : LevelStore τ) (pos : Nat) (price : Int)
    (push : PriceLevel τ → PriceLevel τ) : LevelStore τ :=
  let acquired := store.acquireLevel
  let shifted := Slots.shiftRight acquired.2.levels pos (acquired.2.levelCount - pos)
  LevelStore.modifyLevel { acquired.2 with
    levels := Function.update shifted pos acquired.1
    levelCount := acquired.2.levelCount + 1 } acquired.1 fun level => push { level with price }

end LevelStore

namespace StoreOk

variable {d : Direction} {store : LevelStore τ}

theorem levelAt_better (ok : StoreOk d store) {i j : Nat} (less : i < j)
    (within : j < store.levelCount) :
    d.better (store.levelAt i).price (store.levelAt j).price = true := by
  have sorted := ok.sorted
  rw [LevelStore.activeLevels_eq, List.pairwise_iff_getElem] at sorted
  have pair := sorted i j (by simp; omega) (by simpa using within) less
  rwa [Slots.first_getElem, Slots.first_getElem] at pair

theorem probe_sorted (ok : StoreOk d store) (price : Int) :
    BinarySearch.Sorted (store.probe d price) store.levelCount where
  onward := by
    intro i j least within before
    rcases Nat.lt_or_eq_of_le least with less | rfl
    next =>
      have sorted := ok.levelAt_better less within
      have better : d.better price (store.levelAt i).price = true := by
        simp only [LevelStore.probe] at before
        split_ifs at before with _ better
        exact better
      have onward := Direction.better_trans better sorted
      have other : (store.levelAt j).price ≠ price := by
        intro same
        simp [same, Direction.better_irrefl] at onward
      simp [LevelStore.probe, other, onward]
    next => exact before
  backward := by
    intro i j least within after
    rcases Nat.lt_or_eq_of_le least with less | rfl
    next =>
      have sorted := ok.levelAt_better less within
      obtain ⟨other, worse⟩ : (store.levelAt j).price ≠ price ∧
          d.better price (store.levelAt j).price = false := by
        simp only [LevelStore.probe] at after
        split_ifs at after with same worse
        exact ⟨same, by simpa using worse⟩
      have back : d.better (store.levelAt i).price price = true := by
        rcases d.better_or_eq_or_better (store.levelAt j).price price with better | same | better
        next => exact Direction.better_trans sorted better
        next => exact absurd same other
        next => simp [better] at worse
      have distinct : (store.levelAt i).price ≠ price := by
        intro same
        simp [same, Direction.better_irrefl] at back
      simp [LevelStore.probe, distinct, Direction.better_asymm back]
    next => exact after

end StoreOk

-- The new node stands at the end of the queue of `level`, between the better and the worse levels.
structure Insertion (d : Direction) (store next : LevelStore τ) (node : BookOrder τ)
    (pre post : List (PriceLevel τ)) (level : PriceLevel τ) : Prop where
  after : next.activeLevels = pre ++ level :: post
  orders : store.orders =
    pre.flatMap PriceLevel.queue ++ store.queueAt node.price ++ post.flatMap PriceLevel.queue
  queue : level.queue = store.queueAt node.price ++ [node]
  price : level.price = node.price
  before : ∀ other ∈ pre, d.better other.price node.price = true
  behind : ∀ other ∈ post, d.better node.price other.price = true

theorem storeOk_of_split {d : Direction} {next : LevelStore τ} {pre post : List (PriceLevel τ)}
    {level : PriceLevel τ}
    (pointers : (next.activePtrs ++ next.freePtrs).Perm (List.range maxBookLevels))
    (after : next.activeLevels = pre ++ level :: post)
    (sorted : (pre ++ post).Pairwise fun a b => d.better a.price b.price = true)
    (before : ∀ other ∈ pre, d.better other.price level.price = true)
    (behind : ∀ other ∈ post, d.better level.price other.price = true)
    (others : ∀ other ∈ pre ++ post, LevelOk d other ∧ 0 < other.orderCount)
    (levelOk : LevelOk d level ∧ 0 < level.orderCount) : StoreOk d next := by
  obtain ⟨preSorted, postSorted, across⟩ := List.pairwise_append.mp sorted
  refine ⟨pointers, ?_, ?_⟩
  next =>
    rw [after, List.pairwise_append, List.pairwise_cons]
    refine ⟨preSorted, ⟨behind, postSorted⟩, ?_⟩
    intro a first b second
    rcases List.mem_cons.mp second with rfl | later
    next => exact before a first
    next => exact across a first b later
  next =>
    rw [after]
    intro other member
    rcases List.mem_append.mp member with first | second
    next => exact others other (List.mem_append_left _ first)
    next =>
      rcases List.mem_cons.mp second with rfl | later
      next => exact levelOk
      next => exact others other (List.mem_append_right _ later)

theorem queueAt_of_split {d : Direction} {store : LevelStore τ} {pre post : List (PriceLevel τ)}
    {level : PriceLevel τ} (split : store.activeLevels = pre ++ level :: post)
    (before : ∀ other ∈ pre, d.better other.price level.price = true) :
    store.queueAt level.price = level.queue := by
  have missing : pre.find? (fun other => other.price = level.price) = none := by
    rw [List.find?_eq_none]
    intro other member same
    have better := before other member
    simp [of_decide_eq_true same, Direction.better_irrefl] at better
  simp [LevelStore.queueAt, split, List.find?_append, missing]

theorem queueAt_of_missing {store : LevelStore τ} {price : Int}
    (missing : ∀ level ∈ store.activeLevels, level.price ≠ price) : store.queueAt price = [] := by
  have none : store.activeLevels.find? (fun level => level.price = price) = none := by
    rw [List.find?_eq_none]
    intro level member same
    exact missing level member (of_decide_eq_true same)
  simp [LevelStore.queueAt, none]

namespace StoreOk

variable {d : Direction} {store : LevelStore τ}

theorem probe_gt {price : Int} {i : Nat} (after : store.probe d price i = .gt) :
    d.better (store.levelAt i).price price = true := by
  simp only [LevelStore.probe] at after
  split_ifs at after with same worse
  rcases d.better_or_eq_or_better (store.levelAt i).price price with better | equal | better
  next => exact better
  next => exact absurd equal same
  next => exact absurd better worse

theorem probe_lt {price : Int} {i : Nat} (before : store.probe d price i = .lt) :
    d.better price (store.levelAt i).price = true := by
  simp only [LevelStore.probe] at before
  split_ifs at before with _ better
  exact better

theorem activeLevels_split (store : LevelStore τ) {mid : Nat} (within : mid < store.levelCount) :
    store.activeLevels = (store.activePtrs.take mid).map store.pool ++
      store.levelAt mid :: (store.activePtrs.drop (mid + 1)).map store.pool := by
  have ptrs : store.activePtrs =
      store.activePtrs.take mid ++ store.levels mid :: store.activePtrs.drop (mid + 1) :=
    Slots.first_split store.levels within
  rw [LevelStore.activeLevels, LevelStore.levelAt, ← List.map_cons, ← List.map_append, ← ptrs]

theorem queueAt_levelAt (ok : StoreOk d store) {mid : Nat} (within : mid < store.levelCount) :
    store.queueAt (store.levelAt mid).price = (store.levelAt mid).queue := by
  have split := activeLevels_split store within
  have sorted := ok.sorted
  rw [split] at sorted
  obtain ⟨-, -, across⟩ := List.pairwise_append.mp sorted
  exact queueAt_of_split split fun other member => across other member _ List.mem_cons_self

section AddToBook

variable (ok : StoreOk d store) {order : ParsedOrder} {qty : Nat} (timestampNs : Nat) (tag : τ)
    (side : order.side = d.code) (positive : 0 < qty)

include ok side positive

theorem push_existing {mid : Nat} (within : mid < store.levelCount)
    (price : (store.levelAt mid).price = order.price)
    (room : (store.levelAt mid).orderCount < maxOrdersPerLevel) :
    let next := store.modifyLevel (store.levels mid) (pushResidual order qty timestampNs tag)
    StoreOk d next ∧ ∃ chars pre post level,
      Insertion d store next (residualNode order qty timestampNs tag chars) pre post level := by
  intro next
  let pre := (store.activePtrs.take mid).map store.pool
  let post := (store.activePtrs.drop (mid + 1)).map store.pool
  have ptrs : store.activePtrs =
      store.activePtrs.take mid ++ store.levels mid :: store.activePtrs.drop (mid + 1) :=
    Slots.first_split store.levels within
  have split : store.activeLevels = pre ++ store.levelAt mid :: post :=
    activeLevels_split store within
  have sorted := ok.sorted
  have levels := ok.levels
  rw [split] at sorted levels
  obtain ⟨preSorted, midSorted, across⟩ := List.pairwise_append.mp sorted
  obtain ⟨behind, postSorted⟩ := List.pairwise_cons.mp midSorted
  have before := fun other member => across other member (store.levelAt mid) List.mem_cons_self
  obtain ⟨levelOk, samePrice, some, chars, queue⟩ := pushResidual_ok timestampNs tag
    (levels _ (List.mem_append_right _ List.mem_cons_self)).1 room side price positive
  have after : next.activeLevels =
      pre ++ pushResidual order qty timestampNs tag (store.levelAt mid) :: post := by
    have distinct := (List.nodup_append.mp ok.nodup).1
    rw [ptrs, List.nodup_middle, List.nodup_cons, List.mem_append, not_or] at distinct
    change store.activePtrs.map _ = _
    rw [ptrs, List.map_append, List.map_cons]
    simp only [next, LevelStore.modifyLevel, Function.update_self,
      pool_map_update distinct.1.1, pool_map_update distinct.1.2]
    rfl
  refine ⟨storeOk_of_split ok.pointers after ?_ ?_ ?_ ?_ ⟨levelOk, some⟩,
    chars, pre, post, _, after, ?_, ?_, samePrice, ?_, ?_⟩
  next =>
    rw [List.pairwise_append]
    exact ⟨preSorted, postSorted, fun a first b second =>
      across a first b (List.mem_cons_of_mem _ second)⟩
  next =>
    rw [samePrice, ← price]
    exact before
  next =>
    rw [samePrice, ← price]
    exact behind
  next =>
    intro other member
    rcases List.mem_append.mp member with first | second
    next => exact levels other (List.mem_append_left _ first)
    next => exact levels other (List.mem_append_right _ (List.mem_cons_of_mem _ second))
  next =>
    change store.orders = _ ++ store.queueAt order.price ++ _
    rw [← price, ok.queueAt_levelAt within, LevelStore.orders, split, List.flatMap_append,
      List.flatMap_cons, List.append_assoc]
  next =>
    change _ = store.queueAt order.price ++ _
    rw [queue, ← price, ok.queueAt_levelAt within]
  next =>
    change ∀ other ∈ pre, d.better other.price order.price = true
    rw [← price]
    exact before
  next =>
    change ∀ other ∈ post, d.better order.price other.price = true
    rw [← price]
    exact behind

omit side positive in
theorem acquire_spec (room : store.levelCount < maxBookLevels) :
    ∃ ptr free, store.acquireLevel =
        (ptr, { store with
          freeCount := store.freeCount - 1
          pool := Function.update store.pool ptr (store.pool ptr).reset }) ∧
      ptr ≠ nullptr ∧ ptr ∉ store.activePtrs ∧ store.freePtrs = free ++ [ptr] ∧
      free = Slots.first store.freeList (store.freeCount - 1) := by
  have counts := ok.counts
  have some : store.freeCount ≠ 0 := by omega
  have free : store.freePtrs = Slots.first store.freeList (store.freeCount - 1) ++
      [store.freeList (store.freeCount - 1)] := by
    rw [← Slots.first_succ, Nat.sub_add_cancel (Nat.pos_of_ne_zero some)]
    rfl
  have member : store.freeList (store.freeCount - 1) ∈ store.freePtrs := by simp [free]
  refine ⟨_, _, by simp only [LevelStore.acquireLevel, some, if_false], ?_, ?_, free, rfl⟩
  next => exact Nat.ne_of_lt (ok.ptr_lt (List.mem_append_right _ member))
  next =>
    intro active
    exact (List.nodup_append.mp ok.nodup).2.2 _ active _ member rfl

omit ok side positive in
theorem better_before {price : Int} {pos : Nat}
    (below : ∀ i < pos, store.probe d price i = .gt) :
    ∀ other ∈ (store.activePtrs.take pos).map store.pool, d.better other.price price = true := by
  intro other member
  obtain ⟨ptr, taken, rfl⟩ := List.mem_map.mp member
  obtain ⟨i, less, rfl⟩ := Slots.mem_take_first taken
  exact probe_gt (below i less)

omit ok side positive in
theorem better_behind {price : Int} {pos : Nat}
    (above : ∀ i, pos ≤ i → i < store.levelCount → store.probe d price i = .lt) :
    ∀ other ∈ (store.activePtrs.drop pos).map store.pool, d.better price other.price = true := by
  intro other member
  obtain ⟨ptr, dropped, rfl⟩ := List.mem_map.mp member
  obtain ⟨i, least, within, rfl⟩ := Slots.mem_drop_first dropped
  exact probe_lt (above i least within)

omit side positive in
theorem insertLevel_spec {pos : Nat} (inside : pos ≤ store.levelCount)
    (room : store.levelCount < maxBookLevels) (price : Int) (push : PriceLevel τ → PriceLevel τ) :
    let next := store.insertLevel pos price push
    store.acquireLevel.1 ≠ nullptr ∧
      (next.activePtrs ++ next.freePtrs).Perm (List.range maxBookLevels) ∧
      ∃ ptr, next.activeLevels =
        (store.activePtrs.take pos).map store.pool ++
          push { (store.pool ptr).reset with price } ::
          (store.activePtrs.drop pos).map store.pool := by
  intro next
  obtain ⟨ptr, free, acquire, notNull, unused, freePtrs, freeEq⟩ := ok.acquire_spec room
  have ptrs : next.activePtrs = store.activePtrs.take pos ++ ptr :: store.activePtrs.drop pos := by
    simp only [next, LevelStore.insertLevel, acquire, LevelStore.modifyLevel, LevelStore.activePtrs]
    exact Slots.first_insert store.levels inside ptr
  refine ⟨by simpa only [acquire] using notNull, ?_, ptr, ?_⟩
  next =>
    have left : next.freePtrs = free := by
      rw [freeEq]
      simp only [next, LevelStore.insertLevel, acquire, LevelStore.modifyLevel, LevelStore.freePtrs]
    have taken : (store.activePtrs.take pos ++ ptr :: store.activePtrs.drop pos).Perm
        (ptr :: store.activePtrs) := by
      refine List.perm_middle.trans ?_
      rw [List.take_append_drop]
    refine List.Perm.trans ?_ ok.pointers
    rw [ptrs, left, freePtrs, ← List.append_assoc]
    exact (taken.append_right free).trans (List.perm_append_singleton ptr _).symm
  next =>
    have first : ptr ∉ store.activePtrs.take pos := fun member => unused (List.mem_of_mem_take member)
    have second : ptr ∉ store.activePtrs.drop pos := fun member => unused (List.mem_of_mem_drop member)
    rw [LevelStore.activeLevels, ptrs, List.map_append, List.map_cons]
    simp only [next, LevelStore.insertLevel, acquire, LevelStore.modifyLevel, Function.update_self,
      pool_map_update first, pool_map_update second]

theorem push_new {pos : Nat} (inside : pos ≤ store.levelCount)
    (room : store.levelCount < maxBookLevels)
    (below : ∀ i < pos, store.probe d order.price i = .gt)
    (above : ∀ i, pos ≤ i → i < store.levelCount → store.probe d order.price i = .lt) :
    let next := store.insertLevel pos order.price (pushResidual order qty timestampNs tag)
    store.acquireLevel.1 ≠ nullptr ∧ store.queueAt order.price = [] ∧ StoreOk d next ∧
      ∃ chars pre post level,
        Insertion d store next (residualNode order qty timestampNs tag chars) pre post level := by
  intro next
  let pre := (store.activePtrs.take pos).map store.pool
  let post := (store.activePtrs.drop pos).map store.pool
  have split : store.activeLevels = pre ++ post := by
    rw [LevelStore.activeLevels, ← List.map_append, List.take_append_drop]
  have before : ∀ other ∈ pre, d.better other.price order.price = true := better_before below
  have behind : ∀ other ∈ post, d.better order.price other.price = true := better_behind above
  have missing : store.queueAt order.price = [] := by
    apply queueAt_of_missing
    intro level member same
    rw [split] at member
    rcases List.mem_append.mp member with first | second
    next => simpa [same, Direction.better_irrefl] using before level first
    next => simpa [same, Direction.better_irrefl] using behind level second
  obtain ⟨notNull, pointers, ptr, after⟩ := ok.insertLevel_spec inside room order.price
    (pushResidual order qty timestampNs tag)
  have blankOk : LevelOk d { (store.pool ptr).reset with price := order.price } :=
    emptyLevel_ok order.price
  obtain ⟨levelOk, samePrice, some, chars, queue⟩ := pushResidual_ok timestampNs tag
    blankOk (Nat.succ_pos 31) side rfl positive
  refine ⟨notNull, missing, storeOk_of_split pointers after ?_ ?_ ?_ ?_ ⟨levelOk, some⟩,
    chars, pre, post, _, after, ?_, ?_, samePrice, before, behind⟩
  next => exact split ▸ ok.sorted
  next => exact samePrice.symm ▸ before
  next => exact samePrice.symm ▸ behind
  next => exact split ▸ ok.levels
  next =>
    change store.orders = _ ++ store.queueAt order.price ++ _
    rw [missing, List.append_nil, LevelStore.orders, split, List.flatMap_append]
  next =>
    change _ = store.queueAt order.price ++ _
    rw [missing, queue]
    rfl

end AddToBook

end StoreOk

theorem Insertion.orders_eq {d : Direction} {store next : LevelStore τ} {node : BookOrder τ}
    {pre post : List (PriceLevel τ)} {level : PriceLevel τ} (ok : StoreOk d next)
    (inserted : Insertion d store next node pre post level) :
    next.orders = insertUpper (fun a b => d.better a.price b.price) node store.orders := by
  have levels := ok.levels
  rw [inserted.after] at levels
  have priceOf : ∀ other ∈ pre ++ level :: post, ∀ resting ∈ other.queue,
      resting.price = other.price :=
    fun other member resting inside => ((levels other member).1.resting resting inside).2.1
  rw [inserted.orders, List.append_assoc, ← List.append_assoc, insertUpper_append]
  next =>
    rw [LevelStore.orders, inserted.after, List.flatMap_append, List.flatMap_cons, inserted.queue]
    simp
  next =>
    intro resting member
    rcases List.mem_append.mp member with ahead | equal
    next =>
      obtain ⟨other, first, inside⟩ := List.mem_flatMap.mp ahead
      rw [priceOf other (List.mem_append_left _ first) resting inside]
      exact Direction.better_asymm (inserted.before other first)
    next =>
      have inside : resting ∈ level.queue := by
        rw [inserted.queue]
        exact List.mem_append_left _ equal
      rw [priceOf level (List.mem_append_right _ List.mem_cons_self) resting inside, inserted.price]
      exact Direction.better_irrefl d _
  next =>
    intro resting member
    obtain ⟨other, last, inside⟩ := List.mem_flatMap.mp (List.mem_of_mem_head? member)
    rw [priceOf other (List.mem_append_right _ (List.mem_cons_of_mem _ last)) resting inside]
    exact inserted.behind other last

theorem Insertion.queueAt_eq {d : Direction} {store next : LevelStore τ} {node : BookOrder τ}
    {pre post : List (PriceLevel τ)} {level : PriceLevel τ}
    (inserted : Insertion d store next node pre post level) :
    next.queueAt node.price = store.queueAt node.price ++ [node] := by
  rw [← inserted.queue, ← inserted.price]
  exact queueAt_of_split inserted.after fun other member =>
    inserted.price ▸ inserted.before other member

theorem addToBook_spec {d : Direction} {store : LevelStore τ} (ok : StoreOk d store)
    (room : store.levelCount < maxBookLevels) {order : ParsedOrder} {qty : Nat}
    (timestampNs : Nat) (tag : τ) (side : order.side = d.code) (positive : 0 < qty) :
    let next := store.addToBook d order qty timestampNs tag
    StoreOk d next ∧
      if (store.queueAt order.price).length < maxOrdersPerLevel then
        ∃ chars, let node := residualNode order qty timestampNs tag chars
          next.orders = insertUpper (fun a b => d.better a.price b.price) node store.orders ∧
          next.queueAt order.price = store.queueAt order.price ++ [node]
      else next = store := by
  intro next
  have spec := BinarySearch.search_spec (ok.probe_sorted order.price)
  cases result : (BinarySearch.search (store.probe d order.price) store.levelCount).found with
  | some mid =>
      rw [result] at spec
      obtain ⟨within, hit⟩ := spec
      have price : (store.levelAt mid).price = order.price := by
        simp only [LevelStore.probe] at hit
        split_ifs at hit with same
        exact same
      have pushed : next =
          store.modifyLevel (store.levels mid) (pushResidual order qty timestampNs tag) := by
        simp only [next, LevelStore.addToBook, result]
        rfl
      have queue : (store.queueAt order.price).length = (store.levelAt mid).orderCount := by
        rw [← price, ok.queueAt_levelAt within, PriceLevel.queue_length]
      rw [queue, pushed]
      by_cases free : (store.levelAt mid).orderCount < maxOrdersPerLevel
      next =>
        rw [if_pos free]
        obtain ⟨nextOk, chars, pre, post, level, inserted⟩ :=
          ok.push_existing timestampNs tag side positive within price free
        exact ⟨nextOk, chars, inserted.orders_eq nextOk, inserted.queueAt_eq⟩
      next =>
        have same : store.modifyLevel (store.levels mid) (pushResidual order qty timestampNs tag) =
            store := by
          have full : pushResidual order qty timestampNs tag (store.pool (store.levels mid)) =
              store.pool (store.levels mid) := pushResidual_full timestampNs tag free
          simp only [LevelStore.modifyLevel, full, Function.update_eq_self]
        rw [if_neg free, same]
        exact ⟨ok, rfl⟩
  | none =>
      rw [result] at spec
      obtain ⟨inside, below, above⟩ := spec
      obtain ⟨notNull, missing, nextOk, chars, pre, post, level, inserted⟩ :=
        ok.push_new timestampNs tag side positive inside room below above
      have pushed : next = store.insertLevel
          (BinarySearch.search (store.probe d order.price) store.levelCount).low order.price
          (pushResidual order qty timestampNs tag) := by
        simp only [next, LevelStore.addToBook, result, room, if_true, notNull, if_false]
        rfl
      have free : (store.queueAt order.price).length < maxOrdersPerLevel := by simp [missing]
      rw [if_pos free, pushed]
      exact ⟨nextOk, chars, inserted.orders_eq nextOk, inserted.queueAt_eq⟩

end HftFixEngine.Matching
