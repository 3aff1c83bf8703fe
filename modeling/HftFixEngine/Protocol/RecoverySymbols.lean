import HftFixEngine.Protocol.OrderBookRecoveryManager

set_option autoImplicit false

namespace HftFixEngine.Protocol

def IncrementalUpdate.blank (update : IncrementalUpdate) : IncrementalUpdate :=
  { update with symbol := [] }

def BookSnapshot.blank (snapshot : BookSnapshot) : BookSnapshot := { snapshot with symbol := [] }

namespace RecoveryEvent

def blank : RecoveryEvent → RecoveryEvent
  | .incremental update => .incremental update.blank
  | .snapshot image => .snapshot image.blank
  | .triggerRecovery => .triggerRecovery

def concerns (symbol : Bytes) : RecoveryEvent → Bool
  | .incremental update => update.symbol == symbol
  | .snapshot image => image.symbol == symbol
  | .triggerRecovery => true

end RecoveryEvent

namespace OrderBookRecoveryManager

def blank (manager : OrderBookRecoveryManager) : OrderBookRecoveryManager :=
  { manager with
    symbol := []
    bufferedIncrementals := manager.bufferedIncrementals.map IncrementalUpdate.blank }

variable (manager : OrderBookRecoveryManager)

def Replay.blank (replay : Replay) : Replay := { replay with manager := replay.manager.blank }

theorem blank_applyIncremental (update : IncrementalUpdate) :
    (manager.applyIncremental update).blank = manager.blank.applyIncremental update.blank := by
  have action : update.blank.action = update.action := rfl
  unfold applyIncremental
  rw [action]
  split
  next => rfl
  next =>
    split
    next => rfl
    next => rfl

-- An update that is applied leaves its number behind, in the book and nowhere else.
theorem blank_applied (update : IncrementalUpdate) :
    blank { manager.applyIncremental update with lastAppliedSeq := update.seqNum } =
      { manager.blank.applyIncremental update.blank with lastAppliedSeq := update.blank.seqNum } := by
  rw [← blank_applyIncremental]
  rfl

theorem blank_processIncremental (update : IncrementalUpdate) :
    (manager.processIncremental update).2.blank =
      (manager.blank.processIncremental update.blank).2 := by
  cases state : manager.state with
  | recovering =>
    have blankState : manager.blank.state = .recovering := state
    rw [processIncremental_recovering state, processIncremental_recovering blankState]
    simp [blank]
  | synchronized =>
    have going : ¬ manager.state = .recovering := by simp [state]
    have blankGoing : ¬ manager.blank.state = .recovering := going
    rw [processIncremental, processIncremental, if_neg going, if_neg blankGoing]
    exact blank_applied manager update

theorem blank_replayOne (snapshot : BookSnapshot) (replay : Replay) (inc : IncrementalUpdate) :
    (replayOne snapshot replay inc).blank = replayOne snapshot.blank replay.blank inc.blank := by
  by_cases stale : inc.seqNum ≤ snapshot.snapshotLastSeq
  next =>
    have blankStale : inc.blank.seqNum ≤ snapshot.blank.snapshotLastSeq := stale
    rw [replayOne, replayOne, if_pos stale, if_pos blankStale]
    rfl
  next =>
    have blankFresh : ¬ inc.blank.seqNum ≤ snapshot.blank.snapshotLastSeq := stale
    rw [replayOne, replayOne, if_neg stale, if_neg blankFresh]
    simp only [Replay.blank]
    rw [blank_applied]

theorem blank_replay (snapshot : BookSnapshot) (replay : Replay) (incs : List IncrementalUpdate) :
    (incs.foldl (replayOne snapshot) replay).blank =
      (incs.map IncrementalUpdate.blank).foldl (replayOne snapshot.blank) replay.blank := by
  induction incs generalizing replay with
  | nil => rfl
  | cons inc incs ih => rw [List.foldl_cons, ih, blank_replayOne, List.map_cons, List.foldl_cons]

theorem blank_applySnapshot (snapshot : BookSnapshot) :
    (manager.applySnapshot snapshot).2.blank = (manager.blank.applySnapshot snapshot.blank).2 := by
  have replay : (manager.replayed snapshot manager.bufferedIncrementals).blank =
      manager.blank.replayed snapshot.blank manager.blank.bufferedIncrementals :=
    blank_replay snapshot _ manager.bufferedIncrementals
  simp only [applySnapshot]
  rw [← replay]
  rfl

theorem blank_step (event : RecoveryEvent) :
    (manager.step event).blank = manager.blank.step event.blank := by
  cases event with
  | incremental update => exact blank_processIncremental manager update
  | snapshot image => exact blank_applySnapshot manager image
  | triggerRecovery => rfl

theorem blank_run (events : List RecoveryEvent) :
    (manager.run events).blank = manager.blank.run (events.map RecoveryEvent.blank) := by
  induction events generalizing manager with
  | nil => rfl
  | cons event events ih => rw [run_cons, ih, blank_step, List.map_cons, run_cons]

theorem run_ignores_symbols (symbol other : Bytes) {events others : List RecoveryEvent}
    (same : events.map RecoveryEvent.blank = others.map RecoveryEvent.blank) :
    let left := (create symbol).run events
    let right := (create other).run others
    left.bids = right.bids ∧ left.asks = right.asks ∧ left.state = right.state ∧
      left.lastAppliedSeq = right.lastAppliedSeq := by
  intro left right
  have blanks : left.blank = right.blank := by
    rw [blank_run, blank_run, same]
    rfl
  have sameBids := congrArg bids blanks
  have sameAsks := congrArg asks blanks
  have sameState := congrArg state blanks
  have sameSeq := congrArg lastAppliedSeq blanks
  exact ⟨sameBids, sameAsks, sameState, sameSeq⟩

def ownSymbol : Bytes := [80, 69, 84, 82, 52]

def foreignSymbol : Bytes := [86, 65, 76, 69, 51]

def ownSnapshot : RecoveryEvent := .snapshot { snapshotLastSeq := 1, symbol := ownSymbol }

def bidUpdate (symbol : Bytes) : RecoveryEvent :=
  .incremental { seqNum := 2, symbol, priceScaled := 35000000, quantity := 100 }

theorem foreign_as_own :
    ((create ownSymbol).run [ownSnapshot, bidUpdate foreignSymbol]).bids =
        ((create ownSymbol).run [ownSnapshot, bidUpdate ownSymbol]).bids ∧
      ((create ownSymbol).run [ownSnapshot, bidUpdate foreignSymbol]).lastAppliedSeq = 2 := by
  have same := run_ignores_symbols ownSymbol ownSymbol
    (show [ownSnapshot, bidUpdate foreignSymbol].map RecoveryEvent.blank =
      [ownSnapshot, bidUpdate ownSymbol].map RecoveryEvent.blank from rfl)
  exact ⟨same.1, rfl⟩

theorem foreign_update_applied :
    [ownSnapshot, bidUpdate foreignSymbol].filter (RecoveryEvent.concerns ownSymbol) =
        [ownSnapshot].filter (RecoveryEvent.concerns ownSymbol) ∧
      ((create ownSymbol).run [ownSnapshot]).bids.toList = [] ∧
      ((create ownSymbol).run [ownSnapshot, bidUpdate foreignSymbol]).bids.toList =
        [{ priceScaled := 35000000, quantity := 100 }] ∧
      ((create ownSymbol).run [ownSnapshot, bidUpdate foreignSymbol]).bids ≠
        ((create ownSymbol).run [ownSnapshot]).bids ∧
      ((create ownSymbol).run [ownSnapshot, bidUpdate foreignSymbol]).lastAppliedSeq ≠
        ((create ownSymbol).run [ownSnapshot]).lastAppliedSeq := by
  have before : ((create ownSymbol).run [ownSnapshot]).bids.toList = [] := rfl
  have after : ((create ownSymbol).run [ownSnapshot, bidUpdate foreignSymbol]).bids.toList =
      [{ priceScaled := 35000000, quantity := 100 }] := rfl
  refine ⟨rfl, before, after, ?_, by decide⟩
  intro same
  rw [same, before] at after
  nomatch after

end OrderBookRecoveryManager

end HftFixEngine.Protocol
