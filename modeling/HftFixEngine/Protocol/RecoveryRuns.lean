import HftFixEngine.Protocol.OrderBookRecoveryManager
import HftFixEngine.Shared.Run
import Mathlib.Data.List.Induction

set_option autoImplicit false

namespace HftFixEngine.Protocol

namespace RecoveryEvent

def update? : RecoveryEvent → Option IncrementalUpdate
  | .incremental update => some update
  | _ => none

def isSnapshot : RecoveryEvent → Bool
  | .snapshot _ => true
  | _ => false

end RecoveryEvent

def lastControl (events : List RecoveryEvent) : Option RecoveryEvent :=
  events.reverse.find? fun event => event.update?.isNone

def recentUpdates (events : List RecoveryEvent) : List IncrementalUpdate :=
  (events.reverse.takeWhile fun event => event.update?.isSome).reverse.filterMap
    RecoveryEvent.update?

-- The updates received while recovering, since recovery was last triggered or the manager was created.
-- Behind a snapshot nothing is kept.
def awaiting (events : List RecoveryEvent) : List IncrementalUpdate :=
  if (lastControl events).any RecoveryEvent.isSnapshot then [] else recentUpdates events

section Snoc

variable (events : List RecoveryEvent)

theorem lastControl_incremental (update : IncrementalUpdate) :
    lastControl (events ++ [.incremental update]) = lastControl events := by
  simp [lastControl, RecoveryEvent.update?]

theorem recentUpdates_incremental (update : IncrementalUpdate) :
    recentUpdates (events ++ [.incremental update]) = recentUpdates events ++ [update] := by
  simp [recentUpdates, RecoveryEvent.update?, List.filterMap_append]

theorem awaiting_snapshot (image : BookSnapshot) : awaiting (events ++ [.snapshot image]) = [] := by
  simp [awaiting, lastControl, RecoveryEvent.update?, RecoveryEvent.isSnapshot]

theorem awaiting_triggerRecovery : awaiting (events ++ [.triggerRecovery]) = [] := by
  simp [awaiting, recentUpdates, RecoveryEvent.update?]

end Snoc

namespace OrderBookRecoveryManager

theorem run_snoc (manager : OrderBookRecoveryManager) (events : List RecoveryEvent)
    (event : RecoveryEvent) : manager.run (events ++ [event]) = (manager.run events).step event :=
  run_append manager events [event]

theorem run_state_buffer (symbol : Bytes) (events : List RecoveryEvent) :
    ((create symbol).run events).state =
        (if (lastControl events).any RecoveryEvent.isSnapshot then .synchronized
          else .recovering) ∧
      ((create symbol).run events).bufferedIncrementals = awaiting events := by
  induction events using List.reverseRecOn with
  | nil => exact ⟨rfl, rfl⟩
  | append_singleton events event ih =>
    obtain ⟨state, buffer⟩ := ih
    rw [run_snoc]
    generalize (create symbol).run events = manager at state buffer
    cases event with
    | incremental update =>
      rw [lastControl_incremental, awaiting, lastControl_incremental, recentUpdates_incremental]
      by_cases synced : (lastControl events).any RecoveryEvent.isSnapshot = true
      next =>
        rw [awaiting, if_pos synced] at buffer
        rw [if_pos synced] at state
        rw [if_pos synced, if_pos synced]
        simp only [step, processIncremental_synchronized state]
        exact ⟨state, buffer⟩
      next =>
        rw [awaiting, if_neg synced] at buffer
        rw [if_neg synced] at state
        rw [if_neg synced, if_neg synced]
        simp only [step, processIncremental_recovering state, buffer]
        exact ⟨state, trivial⟩
    | snapshot image =>
      rw [awaiting_snapshot]
      exact ⟨by simp [lastControl, RecoveryEvent.update?, RecoveryEvent.isSnapshot, step,
        applySnapshot], rfl⟩
    | triggerRecovery =>
      rw [awaiting_triggerRecovery]
      exact ⟨by simp [lastControl, RecoveryEvent.update?, RecoveryEvent.isSnapshot, step,
        triggerRecovery], rfl⟩

theorem snapshot_applies_awaiting (symbol : Bytes) (events : List RecoveryEvent)
    (image : BookSnapshot) :
    ((create symbol).run (events ++ [.snapshot image])).bids.toList =
      (image.fresh (awaiting events)).foldl amend (loadLevels true image.bids) := by
  obtain ⟨-, buffer⟩ := run_state_buffer symbol events
  have applied := book_applySnapshot ((create symbol).run events) image
  rw [buffer, RecoveredBook.applyAll_eq] at applied
  rw [run_snoc]
  exact congrArg RecoveredBook.bids applied

theorem snapshot_drops_earlier_updates :
    let update : IncrementalUpdate := { seqNum := 5, priceScaled := 100, quantity := 10 }
    let image : BookSnapshot := { snapshotLastSeq := 3 }
    let expected (events : List RecoveryEvent) : List PriceLevel :=
      (image.fresh (events.filterMap RecoveryEvent.update?)).foldl amend (loadLevels true image.bids)
    let triggered : List RecoveryEvent := [.incremental update, .triggerRecovery]
    let synced : List RecoveryEvent := [.snapshot {}, .incremental update]
    ((create []).run (triggered ++ [.snapshot image])).bids.toList ≠ expected triggered ∧
      ((create []).run (synced ++ [.snapshot image])).bids.toList ≠ expected synced := by
  decide

def SameSides (before after : OrderBookRecoveryManager) : Prop :=
  after.bids = before.bids ∧ after.asks = before.asks

-- What one event must not do to the book. A snapshot starts anew, but each update it replays is held
-- to the same rule at its turn.
def KeepsTime (manager : OrderBookRecoveryManager) : RecoveryEvent → Prop
  | .incremental update =>
    manager.lastAppliedSeq ≤ (manager.step (.incremental update)).lastAppliedSeq ∧
      (update.seqNum ≤ manager.lastAppliedSeq →
        SameSides manager (manager.step (.incremental update)))
  | .snapshot image =>
    ∀ done inc rest, manager.bufferedIncrementals = done ++ inc :: rest →
      inc.seqNum ≤ (manager.replayed image done).manager.lastAppliedSeq →
        SameSides (manager.replayed image done).manager
          (manager.replayed image (done ++ [inc])).manager
  | .triggerRecovery =>
    manager.lastAppliedSeq ≤ (manager.step .triggerRecovery).lastAppliedSeq

def InOrder (manager : OrderBookRecoveryManager) : RecoveryEvent → Prop
  | .incremental update =>
    manager.state = .synchronized → manager.lastAppliedSeq < update.seqNum
  | .snapshot image =>
    (image.fresh manager.bufferedIncrementals).Pairwise
      fun earlier later => earlier.seqNum < later.seqNum
  | .triggerRecovery => True

theorem replayed_snoc (manager : OrderBookRecoveryManager) (image : BookSnapshot)
    (done : List IncrementalUpdate) (inc : IncrementalUpdate) :
    manager.replayed image (done ++ [inc]) = replayOne image (manager.replayed image done) inc :=
  List.foldl_append

theorem replayed_lastAppliedSeq (manager : OrderBookRecoveryManager) (image : BookSnapshot)
    (done : List IncrementalUpdate) :
    (manager.replayed image done).manager.lastAppliedSeq ∈
      image.snapshotLastSeq :: (image.fresh done).map IncrementalUpdate.seqNum := by
  have applied := congrArg RecoveredBook.lastAppliedSeq (book_replayed manager image done)
  rw [RecoveredBook.applyAll_eq] at applied
  rw [show (manager.replayed image done).manager.lastAppliedSeq = _ from applied]
  exact List.getLastD_mem_cons

theorem replay_keepsTime (manager : OrderBookRecoveryManager) (image : BookSnapshot)
    (inOrder : manager.InOrder (.snapshot image)) : manager.KeepsTime (.snapshot image) := by
  intro done inc rest buffer late
  rw [replayed_snoc, replayOne]
  split
  next => exact ⟨rfl, rfl⟩
  next fresh =>
    -- An update behind those replayed so far is newer than all of them.
    have listed : image.fresh (inc :: rest) = inc :: image.fresh rest :=
      List.filter_cons_of_pos (by simpa using fresh)
    rw [InOrder, buffer, BookSnapshot.fresh_append, listed, List.pairwise_append] at inOrder
    have bound : (manager.replayed image done).manager.lastAppliedSeq < inc.seqNum := by
      rcases List.mem_cons.mp (replayed_lastAppliedSeq manager image done) with same | replayed
      next => omega
      next =>
        obtain ⟨earlier, member, same⟩ := List.mem_map.mp replayed
        rw [← same]
        exact inOrder.2.2 earlier member inc List.mem_cons_self
    omega

theorem step_keepsTime (manager : OrderBookRecoveryManager) (event : RecoveryEvent)
    (inOrder : manager.InOrder event) : manager.KeepsTime event := by
  cases event with
  | incremental update =>
    cases state : manager.state with
    | recovering =>
      simp only [KeepsTime, step, processIncremental_recovering state]
      exact ⟨Nat.le_refl _, fun _ => ⟨rfl, rfl⟩⟩
    | synchronized =>
      have newer := inOrder state
      simp only [KeepsTime, step, processIncremental_synchronized state]
      exact ⟨Nat.le_of_lt newer, fun late => absurd newer (Nat.not_lt.mpr late)⟩
  | snapshot image => exact replay_keepsTime manager image inOrder
  | triggerRecovery => exact Nat.le_refl manager.lastAppliedSeq

def NeverGoesBack (start : OrderBookRecoveryManager) (events : List RecoveryEvent) : Prop :=
  (∀ before event after, events = before ++ event :: after →
      (start.run before).KeepsTime event) ∧
    ∀ before during after, events = before ++ during ++ after →
      (∀ event, event ∈ during → event.isSnapshot = false) →
        (start.run before).lastAppliedSeq ≤ (start.run (before ++ during)).lastAppliedSeq

def InOrderRun (manager : OrderBookRecoveryManager) (events : List RecoveryEvent) : Prop :=
  Run.Guarded step InOrder manager events

instance (manager : OrderBookRecoveryManager) (event : RecoveryEvent) :
    Decidable (manager.InOrder event) :=
  match event with
  | .incremental _ => inferInstanceAs (Decidable (_ → _))
  | .snapshot _ => inferInstanceAs (Decidable (List.Pairwise _ _))
  | .triggerRecovery => inferInstanceAs (Decidable True)

instance (manager : OrderBookRecoveryManager) (events : List RecoveryEvent) :
    Decidable (manager.InOrderRun events) :=
  inferInstanceAs (Decidable (Run.Guarded step InOrder manager events))

theorem lastAppliedSeq_le_run {manager : OrderBookRecoveryManager} {events later : List RecoveryEvent}
    (inOrder : manager.InOrderRun (events ++ later))
    (between : ∀ event, event ∈ events → event.isSnapshot = false) :
    manager.lastAppliedSeq ≤ (manager.run events).lastAppliedSeq := by
  induction events generalizing manager with
  | nil => exact Nat.le_refl _
  | cons event events ih =>
    have onward := ih inOrder.2 fun later member => between later (List.mem_cons_of_mem event member)
    have keeps := step_keepsTime manager event inOrder.1
    refine Nat.le_trans ?_ onward
    cases event with
    | incremental update => exact keeps.1
    | snapshot image => exact absurd (between _ List.mem_cons_self) (by simp [RecoveryEvent.isSnapshot])
    | triggerRecovery => exact keeps

theorem in_order_run_never_goes_back (symbol : Bytes) (events : List RecoveryEvent)
    (inOrder : (create symbol).InOrderRun events) : NeverGoesBack (create symbol) events := by
  refine ⟨?_, ?_⟩
  next =>
    rintro before event after rfl
    exact step_keepsTime _ event (Run.Guarded.append inOrder).1
  next =>
    rintro before during after rfl between
    rw [run_append]
    rw [List.append_assoc] at inOrder
    exact lastAppliedSeq_le_run (Run.Guarded.append inOrder) between

theorem in_order_run_never_goes_back_late_snapshot :
    NeverGoesBack (create [])
      [.incremental { seqNum := 4, priceScaled := 100, quantity := 10 },
        .incremental { seqNum := 6, priceScaled := 101, quantity := 20 },
        .snapshot { snapshotLastSeq := 5, bids := [{ priceScaled := 100, quantity := 10 }] },
        .incremental { seqNum := 7, priceScaled := 100, action := 50 }] :=
  in_order_run_never_goes_back [] _ (by decide)

theorem late_updates_go_back :
    ¬ NeverGoesBack (create [])
        [.snapshot { snapshotLastSeq := 5, bids := [{ priceScaled := 100, quantity := 10 }] },
          .incremental { seqNum := 3, priceScaled := 100, quantity := 99 }] ∧
      ¬ NeverGoesBack (create [])
        [.incremental { seqNum := 7, priceScaled := 100, quantity := 10 },
          .incremental { seqNum := 6, priceScaled := 100, quantity := 99 },
          .snapshot { snapshotLastSeq := 5 }] := by
  constructor
  next =>
    intro never
    have grows := (never.1 [_] _ [] rfl).1
    exact absurd grows (by decide)
  next =>
    intro never
    have same := never.1 [_, _] _ [] rfl [_] _ [] rfl (by decide)
    exact absurd (congrArg FlatOrderBook.toList same.1) (by decide)

end OrderBookRecoveryManager

end HftFixEngine.Protocol
