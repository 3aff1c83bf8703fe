import HftFixEngine.Protocol.OrderBookRecoveryManager
import HftFixEngine.Shared.LastWriter

set_option autoImplicit false

namespace HftFixEngine.Protocol

open FlatOrderBook (PlaceHere)
open LastWriter (Write)

def levelAt (side : List PriceLevel) (price : Int) : Option PriceLevel :=
  SortedMap.find PriceLevel.priceScaled price side

structure Fits (isBid : Bool) (prices : Finset Int) (side : List PriceLevel) : Prop where
  sorted : SortedMap.Sorted PriceLevel.priceScaled (PlaceHere isBid) side
  within : ∀ price, price ∈ side.map PriceLevel.priceScaled → price ∈ prices

namespace Fits

variable {isBid : Bool} {prices : Finset Int} {side : List PriceLevel}

theorem nil : Fits isBid prices [] :=
  ⟨List.Pairwise.nil, by simp⟩

theorem length_le (fits : Fits isBid prices side) (bounded : prices.card ≤ maxLevels) :
    side.length ≤ maxLevels :=
  (SortedMap.length_le_card fits.sorted fits.within).trans bounded

theorem insertLevel (fits : Fits isBid prices side) {lvl : PriceLevel}
    (listed : lvl.priceScaled ∈ prices) : Fits isBid prices (insertLevel isBid side lvl) := by
  refine ⟨SortedMap.sorted_put _ lvl fits.sorted, ?_⟩
  intro price member
  rcases SortedMap.put_keys member with rfl | old
  next => exact listed
  next => exact fits.within price old

theorem levelAt_insertLevel (fits : Fits isBid prices side) (bounded : prices.card ≤ maxLevels)
    {lvl : PriceLevel} (listed : lvl.priceScaled ∈ prices) :
    levelAt (Protocol.insertLevel isBid side lvl) =
      LastWriter.apply (levelAt side) { key := lvl.priceScaled, value := some lvl } := by
  have room : decide (side.length < maxLevels) = true ∨
      lvl.priceScaled ∈ side.map PriceLevel.priceScaled := by
    by_cases present : lvl.priceScaled ∈ side.map PriceLevel.priceScaled
    next => exact .inr present
    next =>
      have shorter := SortedMap.length_lt_card fits.sorted fits.within listed present
      exact .inl (decide_eq_true (by omega))
  funext price
  refine (SortedMap.find_put fits.sorted room price).trans ?_
  simp only [LastWriter.apply, Function.update_apply, levelAt, eq_comm]

theorem remove (fits : Fits isBid prices side) (gone : Int) :
    Fits isBid prices (SortedMap.remove PriceLevel.priceScaled gone side) := by
  refine ⟨SortedMap.sorted_remove gone fits.sorted, ?_⟩
  intro price member
  exact fits.within price (((SortedMap.remove_sublist gone side).map _).subset member)

theorem levelAt_remove (fits : Fits isBid prices side) (gone : Int) :
    levelAt (SortedMap.remove PriceLevel.priceScaled gone side) =
      LastWriter.apply (levelAt side) { key := gone, value := none } := by
  funext price
  refine (SortedMap.find_remove fits.sorted gone price).trans ?_
  simp only [LastWriter.apply, Function.update_apply, levelAt, eq_comm]

theorem ext {other : List PriceLevel} (left : Fits isBid prices side)
    (right : Fits isBid prices other) (same : levelAt side = levelAt other) : side = other :=
  SortedMap.ext left.sorted right.sorted (congrFun same)

end Fits

def imageWrites (levels : List PriceLevel) : List (Write Int (Option PriceLevel)) :=
  levels.map fun lvl => { key := lvl.priceScaled, value := some lvl }

theorem imageWrites_keys (levels : List PriceLevel) :
    (imageWrites levels).map Write.key = levels.map PriceLevel.priceScaled := by
  simp [imageWrites, Function.comp_def]

theorem foldl_insertLevel {isBid : Bool} {prices : Finset Int} (bounded : prices.card ≤ maxLevels)
    {levels : List PriceLevel}
    (listed : ∀ lvl, lvl ∈ levels → lvl.priceScaled ∈ prices) {side : List PriceLevel}
    (fits : Fits isBid prices side) :
    Fits isBid prices (levels.foldl (insertLevel isBid) side) ∧
      levelAt (levels.foldl (insertLevel isBid) side) =
        LastWriter.applyAll (levelAt side) (imageWrites levels) := by
  induction levels generalizing side with
  | nil => exact ⟨fits, rfl⟩
  | cons lvl levels ih =>
    have here := listed lvl List.mem_cons_self
    have onward := ih (fun later member => listed later (List.mem_cons_of_mem lvl member))
      (fits.insertLevel here)
    rw [fits.levelAt_insertLevel bounded here] at onward
    exact onward

theorem loadLevels_perm {isBid : Bool} {side levels : List PriceLevel}
    (sorted : SortedMap.Sorted PriceLevel.priceScaled (PlaceHere isBid) side)
    (short : side.length ≤ maxLevels) (listing : levels.Perm side) :
    loadLevels isBid levels = side := by
  have distinct := SortedMap.nodup_keys sorted
  let prices := (side.map PriceLevel.priceScaled).toFinset
  have bounded : prices.card ≤ maxLevels := by
    rw [List.toFinset_card_of_nodup distinct, List.length_map]
    exact short
  have fits : Fits isBid prices side := ⟨sorted, fun price => List.mem_toFinset.mpr⟩
  have listed : ∀ lvl, lvl ∈ levels → lvl.priceScaled ∈ prices := by
    intro lvl member
    exact List.mem_toFinset.mpr (List.mem_map_of_mem (listing.subset member))
  have empty : Fits isBid prices [] := Fits.nil
  obtain ⟨loaded, image⟩ := foldl_insertLevel bounded listed empty
  refine loaded.ext fits ?_
  rw [image]
  funext price
  by_cases present : price ∈ side.map PriceLevel.priceScaled
  next =>
    obtain ⟨lvl, member, rfl⟩ := List.mem_map.mp present
    have listedOnce : ((imageWrites levels).map Write.key).Nodup := by
      rw [imageWrites_keys, (listing.map _).nodup_iff]
      exact distinct
    have written : { key := lvl.priceScaled, value := some lvl } ∈ imageWrites levels :=
      List.mem_map_of_mem (listing.symm.subset member)
    rw [LastWriter.applyAll_of_nodup _ listedOnce written]
    exact (SortedMap.find_of_mem sorted member).symm
  next =>
    have unwritten : price ∉ (imageWrites levels).map Write.key := by
      rw [imageWrites_keys, (listing.map _).mem_iff]
      exact present
    rw [LastWriter.applyAll_of_not_mem _ unwritten]
    exact (SortedMap.find_eq_none.mpr present).symm

theorem insertLevel_length_le (isBid : Bool) {side : List PriceLevel}
    (short : side.length ≤ maxLevels) (lvl : PriceLevel) :
    (insertLevel isBid side lvl).length ≤ maxLevels :=
  SortedMap.put_length_bounded lvl short

theorem loadLevels_sorted (isBid : Bool) (levels : List PriceLevel) :
    SortedMap.Sorted PriceLevel.priceScaled (PlaceHere isBid) (loadLevels isBid levels) ∧
      (loadLevels isBid levels).length ≤ maxLevels := by
  let Ok (side : List PriceLevel) : Prop :=
    SortedMap.Sorted PriceLevel.priceScaled (PlaceHere isBid) side ∧ side.length ≤ maxLevels
  have empty : Ok [] := ⟨List.Pairwise.nil, Nat.zero_le _⟩
  refine List.foldlRecOn (motive := Ok) levels (insertLevel isBid) empty ?_
  rintro side ⟨sorted, short⟩ lvl _
  exact ⟨SortedMap.sorted_put _ lvl sorted, insertLevel_length_le isBid short lvl⟩

def updateWrites (update : IncrementalUpdate) : List (Write Int (Option PriceLevel)) :=
  if update.action = 48 ∨ update.action = 49 then
    [{ key := update.priceScaled
       value := some { priceScaled := update.priceScaled, quantity := update.quantity } }]
  else if update.action = 50 then [{ key := update.priceScaled, value := none }]
  else []

theorem sorted_amend {side : List PriceLevel}
    (sorted : SortedMap.Sorted PriceLevel.priceScaled (PlaceHere true) side)
    (update : IncrementalUpdate) :
    SortedMap.Sorted PriceLevel.priceScaled (PlaceHere true) (amend side update) := by
  unfold amend
  split_ifs
  next => exact SortedMap.sorted_put _ _ sorted
  next => exact SortedMap.sorted_remove _ sorted
  next => exact sorted

section Amend

variable {prices : Finset Int} (bounded : prices.card ≤ maxLevels) {side : List PriceLevel}
include bounded

theorem amend_writes (fits : Fits true prices side) {update : IncrementalUpdate}
    (listed : update.priceScaled ∈ prices) :
    Fits true prices (amend side update) ∧
      levelAt (amend side update) = LastWriter.applyAll (levelAt side) (updateWrites update) := by
  unfold amend updateWrites
  split_ifs
  next => exact ⟨fits.insertLevel listed, fits.levelAt_insertLevel bounded listed⟩
  next => exact ⟨fits.remove _, fits.levelAt_remove _⟩
  next => exact ⟨fits, rfl⟩

theorem foldl_amend_writes {updates : List IncrementalUpdate}
    (listed : ∀ update, update ∈ updates → update.priceScaled ∈ prices)
    (fits : Fits true prices side) :
    Fits true prices (updates.foldl amend side) ∧
      levelAt (updates.foldl amend side) =
        LastWriter.applyAll (levelAt side) (updates.flatMap updateWrites) := by
  induction updates generalizing side with
  | nil => exact ⟨fits, rfl⟩
  | cons update updates ih =>
    obtain ⟨next, written⟩ := amend_writes bounded fits (listed update List.mem_cons_self)
    have onward := ih (fun later member => listed later (List.mem_cons_of_mem update member)) next
    rw [List.foldl_cons, List.flatMap_cons, LastWriter.applyAll_append, ← written]
    exact onward

theorem foldl_amend_again {updates later : List IncrementalUpdate}
    (listed : ∀ update, update ∈ updates ++ later → update.priceScaled ∈ prices)
    (fits : Fits true prices side) :
    later.foldl amend ((updates ++ later).foldl amend side) = (updates ++ later).foldl amend side := by
  obtain ⟨once, written⟩ := foldl_amend_writes bounded listed fits
  obtain ⟨twice, rewritten⟩ := foldl_amend_writes bounded
    (fun update member => listed update (List.mem_append_right updates member)) once
  refine twice.ext once ?_
  rw [rewritten, written, List.flatMap_append, LastWriter.applyAll_again]

end Amend

namespace RecoveredBook

theorem lastSeq_applyAll (book : RecoveredBook) {updates : List IncrementalUpdate}
    (nonempty : updates ≠ []) :
    updates.getLast?.map IncrementalUpdate.seqNum = some (book.applyAll updates).lastAppliedSeq := by
  rw [applyAll_eq, List.getLastD_eq_getLast?, List.getLast?_map,
    List.getLast?_eq_some_getLast nonempty]
  rfl

theorem applyAll_append (book : RecoveredBook) (updates later : List IncrementalUpdate) :
    book.applyAll (updates ++ later) = (book.applyAll updates).applyAll later :=
  List.foldl_append

end RecoveredBook

namespace OrderBookRecoveryManager

theorem run_incrementals_synchronized {manager : OrderBookRecoveryManager}
    (synchronized : manager.state = .synchronized) (updates : List IncrementalUpdate) :
    (manager.run (updates.map .incremental)).state = .synchronized ∧
      (manager.run (updates.map .incremental)).book = manager.book.applyAll updates := by
  induction updates generalizing manager with
  | nil => exact ⟨synchronized, rfl⟩
  | cons update updates ih =>
    have applied := book_processIncremental synchronized update
    have still : (manager.processIncremental update).2.state = .synchronized := by
      rw [processIncremental_synchronized synchronized]
      exact synchronized
    obtain ⟨state, book⟩ := ih still
    rw [applied] at book
    exact ⟨state, book⟩

theorem run_incrementals_recovering {manager : OrderBookRecoveryManager}
    (recovering : manager.state = .recovering) (updates : List IncrementalUpdate) :
    (manager.run (updates.map .incremental)).state = .recovering ∧
      (manager.run (updates.map .incremental)).bufferedIncrementals =
        manager.bufferedIncrementals ++ updates := by
  induction updates generalizing manager with
  | nil => exact ⟨recovering, (List.append_nil _).symm⟩
  | cons update updates ih =>
    have buffered := processIncremental_recovering recovering update
    have still : (manager.processIncremental update).2.state = .recovering := by
      rw [buffered]
      exact recovering
    have stored : (manager.processIncremental update).2.bufferedIncrementals =
        manager.bufferedIncrementals ++ [update] := by rw [buffered]
    obtain ⟨state, buffer⟩ := ih still
    rw [stored, List.append_assoc, List.singleton_append] at buffer
    exact ⟨state, buffer⟩

theorem run_around_snapshot {manager : OrderBookRecoveryManager}
    (recovering : manager.state = .recovering) (snapshot : BookSnapshot)
    (early late : List IncrementalUpdate) :
    (manager.run (early.map .incremental ++ .snapshot snapshot :: late.map .incremental)).state =
        .synchronized ∧
      (manager.run (early.map .incremental ++ .snapshot snapshot :: late.map .incremental)).book =
        (RecoveredBook.ofSnapshot snapshot).applyAll
          (snapshot.fresh (manager.bufferedIncrementals ++ early) ++ late) := by
  obtain ⟨-, buffer⟩ := run_incrementals_recovering recovering early
  rw [run_append, run_cons]
  generalize manager.run (early.map .incremental) = waiting at buffer ⊢
  have image := book_applySnapshot waiting snapshot
  have synchronized : (waiting.step (.snapshot snapshot)).state = .synchronized := rfl
  obtain ⟨state, book⟩ := run_incrementals_synchronized synchronized late
  refine ⟨state, ?_⟩
  rw [book, RecoveredBook.applyAll_append, ← buffer, ← image]
  rfl

end OrderBookRecoveryManager

section Convergence

variable {snapshot : BookSnapshot} {covered rest : List IncrementalUpdate}

theorem fresh_of_stale {incs : List IncrementalUpdate}
    (stale : ∀ inc, inc ∈ incs → inc.seqNum ≤ snapshot.snapshotLastSeq) :
    snapshot.fresh incs = [] := by
  apply List.filter_eq_nil_iff.mpr
  intro inc member
  have bound := stale inc member
  simp only [decide_eq_true_eq]
  omega

theorem fresh_of_newer {incs : List IncrementalUpdate}
    (newer : ∀ inc, inc ∈ incs → snapshot.snapshotLastSeq < inc.seqNum) :
    snapshot.fresh incs = incs := by
  apply List.filter_eq_self.mpr
  intro inc member
  exact decide_eq_true (newer inc member)

theorem applied_after_snapshot {early late buffered : List IncrementalUpdate} {start : Nat}
    (stream : early ++ late = covered.drop start ++ rest)
    (old : ∀ inc, inc ∈ buffered → inc.seqNum ≤ snapshot.snapshotLastSeq)
    (stale : ∀ inc, inc ∈ covered → inc.seqNum ≤ snapshot.snapshotLastSeq)
    (newer : ∀ inc, inc ∈ rest → snapshot.snapshotLastSeq < inc.seqNum) :
    ∃ before again, covered = before ++ again ∧
      snapshot.fresh (buffered ++ early) ++ late = again ++ rest := by
  rw [BookSnapshot.fresh_append, fresh_of_stale old, List.nil_append]
  rcases List.append_eq_append_iff.mp stream with ⟨again, dropped, tail⟩ | ⟨replayed, head, tail⟩
  next =>
    -- The snapshot overtakes the updates in `again`, which it holds already.
    refine ⟨covered.take start ++ early, again, ?_, ?_⟩
    next => rw [List.append_assoc, ← dropped, List.take_append_drop]
    next =>
      rw [fresh_of_stale, List.nil_append, tail]
      intro inc member
      have inStream : inc ∈ covered.drop start := by
        rw [dropped]
        exact List.mem_append_left again member
      exact stale inc (List.mem_of_mem_drop inStream)
  next =>
    refine ⟨covered, [], (List.append_nil covered).symm, ?_⟩
    have passed : snapshot.fresh (covered.drop start) = [] :=
      fresh_of_stale fun inc member => stale inc (List.mem_of_mem_drop member)
    have pending : snapshot.fresh replayed = replayed := by
      apply fresh_of_newer
      intro inc member
      rw [tail] at newer
      exact newer inc (List.mem_append_left late member)
    rw [head, BookSnapshot.fresh_append, passed, pending, List.nil_append, List.nil_append, tail]

theorem lastSeq_again (book : RecoveredBook) (before again : List IncrementalUpdate) :
    (again.map IncrementalUpdate.seqNum).getLastD
        (((before ++ again).map IncrementalUpdate.seqNum).getLastD book.lastAppliedSeq) =
      ((before ++ again).map IncrementalUpdate.seqNum).getLastD book.lastAppliedSeq := by
  rw [List.map_append]
  simp only [List.getLastD_eq_getLast?, List.getLast?_append]
  cases (again.map IncrementalUpdate.seqNum).getLast? <;> simp

theorem ofSnapshot_again {prices : Finset Int} (bounded : prices.card ≤ maxLevels)
    {synced : RecoveredBook} (fits : Fits true prices synced.bids)
    (asksSorted : SortedMap.Sorted PriceLevel.priceScaled (PlaceHere false) synced.asks)
    (asksShort : synced.asks.length ≤ maxLevels) {before again : List IncrementalUpdate}
    (listed : ∀ update, update ∈ before ++ again → update.priceScaled ∈ prices)
    (bids : snapshot.bids.Perm (synced.applyAll (before ++ again)).bids)
    (asks : snapshot.asks.Perm (synced.applyAll (before ++ again)).asks)
    (last : snapshot.snapshotLastSeq = (synced.applyAll (before ++ again)).lastAppliedSeq) :
    (RecoveredBook.ofSnapshot snapshot).applyAll again = synced.applyAll (before ++ again) := by
  rw [RecoveredBook.applyAll_eq] at bids asks last
  obtain ⟨fitsAfter, -⟩ := foldl_amend_writes bounded listed fits
  have bidsLoaded : loadLevels true snapshot.bids = (before ++ again).foldl amend synced.bids :=
    loadLevels_perm fitsAfter.sorted (fitsAfter.length_le bounded) bids
  have asksLoaded : loadLevels false snapshot.asks = synced.asks :=
    loadLevels_perm asksSorted asksShort asks
  have loaded : RecoveredBook.ofSnapshot snapshot = synced.applyAll (before ++ again) := by
    rw [RecoveredBook.applyAll_eq, RecoveredBook.ofSnapshot, bidsLoaded, asksLoaded, last]
  rw [loaded, RecoveredBook.applyAll_eq, RecoveredBook.applyAll_eq]
  simp only [foldl_amend_again bounded listed fits, lastSeq_again]

theorem le_of_mem_take {updates : List IncrementalUpdate}
    (increasing : updates.Pairwise fun earlier later => earlier.seqNum < later.seqNum) {k : Nat}
    {last inc : IncrementalUpdate} (there : updates[k]? = some last)
    (member : inc ∈ updates.take (k + 1)) : inc.seqNum ≤ last.seqNum := by
  obtain ⟨inside, rfl⟩ := List.getElem?_eq_some_iff.mp there
  rw [List.take_succ_eq_append_getElem inside, List.mem_append, List.mem_singleton] at member
  rcases member with earlier | rfl
  next =>
    rw [← List.take_append_drop k updates, List.pairwise_append] at increasing
    have ahead : updates[k] ∈ updates.drop k := by
      rw [List.drop_eq_getElem_cons inside]
      exact List.mem_cons_self
    exact Nat.le_of_lt (increasing.2.2 inc earlier _ ahead)
  next => exact Nat.le_refl _

theorem lt_of_mem_drop {updates : List IncrementalUpdate}
    (increasing : updates.Pairwise fun earlier later => earlier.seqNum < later.seqNum) {k : Nat}
    {last inc : IncrementalUpdate} (there : updates[k]? = some last)
    (member : inc ∈ updates.drop (k + 1)) : last.seqNum < inc.seqNum := by
  obtain ⟨inside, rfl⟩ := List.getElem?_eq_some_iff.mp there
  have suffix := increasing.sublist (List.drop_sublist k updates)
  rw [List.drop_eq_getElem_cons inside] at suffix
  exact (List.pairwise_cons.mp suffix).1 inc member

theorem lastSeq_take {updates : List IncrementalUpdate} {k : Nat} {covering : IncrementalUpdate}
    (there : updates[k]? = some covering) (book : RecoveredBook) :
    (book.applyAll (updates.take (k + 1))).lastAppliedSeq = covering.seqNum := by
  obtain ⟨inside, rfl⟩ := List.getElem?_eq_some_iff.mp there
  rw [RecoveredBook.applyAll_eq, List.take_succ_eq_append_getElem inside, List.map_append]
  simp

theorem ofSnapshot_converges {prices : Finset Int} (bounded : prices.card ≤ maxLevels)
    {synced : RecoveredBook} (fits : Fits true prices synced.bids)
    (asksSorted : SortedMap.Sorted PriceLevel.priceScaled (PlaceHere false) synced.asks)
    (asksShort : synced.asks.length ≤ maxLevels)
    {updates early late buffered : List IncrementalUpdate}
    (increasing : updates.Pairwise fun earlier later => earlier.seqNum < later.seqNum)
    (listed : ∀ update, update ∈ updates → update.priceScaled ∈ prices)
    (old : ∀ inc, inc ∈ buffered → inc.seqNum ≤ snapshot.snapshotLastSeq)
    {start k : Nat} (noGap : start ≤ k + 1) (stream : early ++ late = updates.drop start)
    {covering : IncrementalUpdate} (there : updates[k]? = some covering)
    (lastSeq : covering.seqNum = snapshot.snapshotLastSeq)
    (bids : snapshot.bids.Perm (synced.applyAll (updates.take (k + 1))).bids)
    (asks : snapshot.asks.Perm (synced.applyAll (updates.take (k + 1))).asks) :
    (RecoveredBook.ofSnapshot snapshot).applyAll (snapshot.fresh (buffered ++ early) ++ late) =
      synced.applyAll updates := by
  have inside : k < updates.length := (List.getElem?_eq_some_iff.mp there).1
  have suffix : updates.drop start =
      (updates.take (k + 1)).drop start ++ updates.drop (k + 1) := by
    rw [← List.drop_append_of_le_length (by rw [List.length_take]; omega), List.take_append_drop]
  rw [suffix] at stream
  obtain ⟨before, again, covered, applied⟩ := applied_after_snapshot stream old
    (fun inc member => lastSeq ▸ le_of_mem_take increasing there member)
    (fun inc member => lastSeq ▸ lt_of_mem_drop increasing there member)
  have lastApplied := (lastSeq_take there synced).trans lastSeq
  have coveredListed : ∀ update, update ∈ before ++ again → update.priceScaled ∈ prices := by
    intro update member
    rw [← covered] at member
    exact listed update (List.mem_of_mem_take member)
  rw [covered] at bids asks lastApplied
  calc (RecoveredBook.ofSnapshot snapshot).applyAll (snapshot.fresh (buffered ++ early) ++ late)
    _ = ((RecoveredBook.ofSnapshot snapshot).applyAll again).applyAll (updates.drop (k + 1)) := by
      rw [applied, RecoveredBook.applyAll_append]
    _ = (synced.applyAll (before ++ again)).applyAll (updates.drop (k + 1)) := by
      rw [ofSnapshot_again bounded fits asksSorted asksShort coveredListed bids asks
        lastApplied.symm]
    _ = synced.applyAll updates := by
      rw [← RecoveredBook.applyAll_append, ← covered, List.take_append_drop]

end Convergence

namespace OrderBookRecoveryManager

theorem applySnapshot_sorted (manager : OrderBookRecoveryManager) (initial : BookSnapshot) :
    SortedMap.Sorted PriceLevel.priceScaled (PlaceHere true)
        (manager.applySnapshot initial).2.book.bids ∧
      SortedMap.Sorted PriceLevel.priceScaled (PlaceHere false)
        (manager.applySnapshot initial).2.book.asks ∧
      (manager.applySnapshot initial).2.book.asks.length ≤ maxLevels := by
  rw [book_applySnapshot, RecoveredBook.applyAll_eq]
  refine ⟨?_, loadLevels_sorted false initial.asks⟩
  let Ok (side : List PriceLevel) : Prop :=
    SortedMap.Sorted PriceLevel.priceScaled (PlaceHere true) side
  refine List.foldlRecOn (motive := Ok) _ amend (loadLevels_sorted true initial.bids).1 ?_
  intro side sorted update _
  exact sorted_amend sorted update

theorem snapshot_replay_equals_direct (symbol : Bytes) (history : List RecoveryEvent)
    (initial snapshot : BookSnapshot) (reference second : OrderBookRecoveryManager)
    (updates early late : List IncrementalUpdate) (m k : Nat)
    (synced : reference = (create symbol).run (history ++ [.snapshot initial]))
    (increasing : updates.Pairwise fun earlier later => earlier.seqNum < later.seqNum)
    (bounded : (reference.bids.toList.map PriceLevel.priceScaled ++
      updates.map IncrementalUpdate.priceScaled).toFinset.card ≤ maxLevels)
    (recovering : second.state = .recovering)
    (old : ∀ inc, inc ∈ second.bufferedIncrementals →
      inc.seqNum ≤ snapshot.snapshotLastSeq)
    (between : 1 ≤ k ∧ k ≤ updates.length) (noGap : 1 ≤ m ∧ m ≤ k + 1)
    (stream : early ++ late = updates.drop (m - 1))
    (last : updates[k - 1]?.map IncrementalUpdate.seqNum = some snapshot.snapshotLastSeq)
    (bids : snapshot.bids.Perm
      (reference.run ((updates.take k).map .incremental)).bids.toList)
    (asks : snapshot.asks.Perm
      (reference.run ((updates.take k).map .incremental)).asks.toList) :
    let direct := reference.run (updates.map .incremental)
    let recovered :=
      second.run (early.map .incremental ++ .snapshot snapshot :: late.map .incremental)
    recovered.state = .synchronized ∧
      recovered.bids.toList = direct.bids.toList ∧
      recovered.asks.toList = direct.asks.toList ∧
      updates.getLast?.map IncrementalUpdate.seqNum = some recovered.lastAppliedSeq := by
  intro direct recovered
  obtain ⟨k, rfl⟩ : ∃ n, k = n + 1 := ⟨k - 1, by omega⟩
  obtain ⟨covering, there, lastSeq⟩ := Option.map_eq_some_iff.mp last
  rw [Nat.add_sub_cancel] at there
  -- The reference is synchronized, so its book is that of its updates applied in order.
  rw [run_append] at synced
  have synchronized : reference.state = .synchronized := by rw [synced]; rfl
  obtain ⟨bidsSorted, asksSorted, asksShort⟩ :=
    applySnapshot_sorted ((create symbol).run history) initial
  rw [← show reference = (((create symbol).run history).applySnapshot initial).2 from synced]
    at bidsSorted asksSorted asksShort
  obtain ⟨-, directBook⟩ := run_incrementals_synchronized synchronized updates
  obtain ⟨-, imageBook⟩ := run_incrementals_synchronized synchronized (updates.take (k + 1))
  obtain ⟨state, recoveredBook⟩ := run_around_snapshot recovering snapshot early late
  -- All prices that can ever stand on the bid side.
  let prices := (reference.bids.toList.map PriceLevel.priceScaled ++
    updates.map IncrementalUpdate.priceScaled).toFinset
  have fits : Fits true prices reference.book.bids := by
    refine ⟨bidsSorted, ?_⟩
    intro price member
    exact List.mem_toFinset.mpr (List.mem_append_left _ member)
  have listed : ∀ update, update ∈ updates → update.priceScaled ∈ prices := by
    intro update member
    exact List.mem_toFinset.mpr (List.mem_append_right _ (List.mem_map_of_mem member))
  have converged : recovered.book = direct.book := by
    rw [show recovered.book = _ from recoveredBook, show direct.book = _ from directBook]
    exact ofSnapshot_converges bounded fits asksSorted asksShort increasing listed old (by omega)
      stream there lastSeq (imageBook ▸ bids) (imageBook ▸ asks)
  have lastDirect := RecoveredBook.lastSeq_applyAll reference.book
    (List.ne_nil_of_length_pos (by omega : 0 < updates.length))
  rw [← show direct.book = _ from directBook, ← converged] at lastDirect
  exact ⟨state, congrArg RecoveredBook.bids converged, congrArg RecoveredBook.asks converged,
    lastDirect⟩

theorem snapshot_replay_equals_direct_overtaken :
    let reference := (create []).run
      [.snapshot { bids := [{ priceScaled := 100, quantity := 10 }],
                   asks := [{ priceScaled := 200, quantity := 5 }] }]
    let updates : List IncrementalUpdate :=
      [{ seqNum := 1, priceScaled := 101, quantity := 7 },
        { seqNum := 2, priceScaled := 102, quantity := 3 },
        { seqNum := 4, priceScaled := 100, action := 50 }]
    let recovered := (create []).run
      [.incremental { seqNum := 1, priceScaled := 101, quantity := 7 },
        .snapshot
          { snapshotLastSeq := 2
            bids := [{ priceScaled := 100, quantity := 10 }, { priceScaled := 102, quantity := 3 },
              { priceScaled := 101, quantity := 7 }]
            asks := [{ priceScaled := 200, quantity := 5 }] },
        .incremental { seqNum := 2, priceScaled := 102, quantity := 3 },
        .incremental { seqNum := 4, priceScaled := 100, action := 50 }]
    recovered.state = .synchronized ∧
      recovered.bids.toList = (reference.run (updates.map .incremental)).bids.toList ∧
      recovered.asks.toList = (reference.run (updates.map .incremental)).asks.toList ∧
      updates.getLast?.map IncrementalUpdate.seqNum = some recovered.lastAppliedSeq := by
  intro reference updates recovered
  exact snapshot_replay_equals_direct [] [] _
    { snapshotLastSeq := 2
      bids := [{ priceScaled := 100, quantity := 10 }, { priceScaled := 102, quantity := 3 },
        { priceScaled := 101, quantity := 7 }]
      asks := [{ priceScaled := 200, quantity := 5 }] }
    reference (create []) updates (updates.take 1) (updates.drop 1) 1 2 rfl (by decide)
    (by decide) rfl (by decide) (by decide) (by decide) rfl rfl (by decide) (by decide)

end OrderBookRecoveryManager

end HftFixEngine.Protocol
