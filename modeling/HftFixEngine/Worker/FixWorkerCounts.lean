import HftFixEngine.Worker.FixWorker

set_option autoImplicit false

namespace HftFixEngine.Worker

open Word

namespace Working

def rest : Working → List FixMessagePacket
  | .packet batch => batch
  | .canPush _ batch => batch
  | .push batch => batch
  | .packetEnd batch => batch
  | _ => []

-- The packet at hand has been counted, and the count has not been looked at.
def counted : Working → Bool
  | .canPush _ _ => true
  | .push _ => true
  | .packetEnd _ => true
  | .finished => true
  | _ => false

end Working

namespace FixWorker

variable {priceText : Int → Bytes} {worker : FixWorker}

structure CountsOk (worker : FixWorker) : Prop where
  processed : worker.telemetry.messagesProcessed = u32 worker.handled.length
  total : worker.telemetry.totalLatencyNs =
    u64 (worker.handled.map FixMessagePacket.latencyNs).sum
  least : worker.telemetry.minLatencyNs =
    (worker.handled.map FixMessagePacket.latencyNs).foldl (fun least latency => min latency least)
      (2 ^ 64 - 1)
  most : worker.telemetry.maxLatencyNs =
    (worker.handled.map FixMessagePacket.latencyNs).foldl (fun most latency => max latency most) 0
  released : worker.released = worker.handled.flatMap fun packet => packet.ringHdr.toList
  going : worker.working ≠ .finished → worker.handled ++ worker.working.rest = worker.popped
  stopped : worker.working = .finished →
    worker.handled = worker.popped ∨
      ∃ dropped, worker.handled ++ dropped = worker.popped ∧ dropped.length < 32 ∧
        worker.complete = true
  batch : worker.working.rest.length ≤ if worker.working.counted then 31 else 32
  limit : worker.expectedMessages < 2 ^ 32 →
    worker.handled.length ≤
      if worker.working.counted then max worker.expectedMessages 1
      else max worker.expectedMessages 1 - 1

namespace CountsOk

theorem start (expectedMessages : Nat) (cells : Nat → LogMessage) :
    CountsOk (FixWorker.start expectedMessages cells) where
  processed := rfl
  total := rfl
  least := rfl
  most := rfl
  released := rfl
  going := fun _ => rfl
  stopped := nofun
  batch := Nat.zero_le _
  limit := fun _ => Nat.zero_le _

variable (ok : CountsOk worker)

include ok

theorem processed_of_small (small : worker.expectedMessages < 2 ^ 32) :
    worker.telemetry.messagesProcessed = worker.handled.length := by
  have limit := ok.limit small
  rw [ok.processed]
  refine Nat.mod_eq_of_lt ?_
  split at limit <;> omega

theorem goOn {now : FixWorker} (telemetry : now.telemetry = worker.telemetry)
    (handled : now.handled = worker.handled) (released : now.released = worker.released)
    (expected : now.expectedMessages = worker.expectedMessages)
    (going : now.working ≠ .finished → worker.handled ++ now.working.rest = now.popped)
    (stopped : now.working = .finished → worker.handled = now.popped ∨
      ∃ dropped, worker.handled ++ dropped = now.popped ∧ dropped.length < 32 ∧
        worker.complete = true)
    (batch : now.working.rest.length ≤ if now.working.counted then 31 else 32)
    (limit : worker.expectedMessages < 2 ^ 32 → worker.handled.length ≤
      if now.working.counted then max worker.expectedMessages 1
      else max worker.expectedMessages 1 - 1) : CountsOk now where
  processed := by rw [telemetry, handled, ok.processed]
  total := by rw [telemetry, handled, ok.total]
  least := by rw [telemetry, handled, ok.least]
  most := by rw [telemetry, handled, ok.most]
  released := by rw [released, handled, ok.released]
  going := by rwa [handled]
  stopped := by
    rw [handled, complete, telemetry, expected]
    exact stopped
  batch := batch
  limit := by rwa [handled, expected]

theorem handle {packet : FixMessagePacket} {batch : List FixMessagePacket}
    (here : worker.working = .packet (packet :: batch)) : CountsOk (worker.handle packet batch) where
  processed := by
    simp [FixWorker.handle, count, ok.processed, u32]
  total := by
    simp [FixWorker.handle, count, ok.total, u64]
  least := by
    simp [FixWorker.handle, count, ok.least]
  most := by
    simp [FixWorker.handle, count, ok.most]
  released := by
    simp [FixWorker.handle, ok.released]
  going := by
    intro _
    have going := ok.going (by rw [here]; exact nofun)
    rw [here] at going
    simpa [FixWorker.handle, Working.rest] using going
  stopped := nofun
  batch := by
    have batch := ok.batch
    rw [here] at batch
    simp only [Working.rest, Working.counted, List.length_cons, Bool.false_eq_true, if_false,
      FixWorker.handle, if_true] at batch ⊢
    omega
  limit := by
    intro small
    have limit := ok.limit small
    rw [here] at limit
    simp only [Working.counted, Bool.false_eq_true, if_false, FixWorker.handle, if_true,
      List.length_append, List.length_singleton] at limit ⊢
    omega

theorem packetsDone (here : worker.working = .packet []) :
    CountsOk { worker with working := if worker.complete then .finished else .head } := by
  have all := ok.going (by rw [here]; exact nofun)
  have limit := ok.limit
  rw [here] at all limit
  simp only [Working.rest, List.append_nil, Working.counted, Bool.false_eq_true, if_false]
    at all limit
  split
  next =>
    refine ok.goOn rfl rfl rfl rfl (absurd rfl) (fun _ => .inl all) (Nat.zero_le _) fun small => ?_
    exact Nat.le_trans (limit small) (Nat.sub_le _ _)
  next =>
    refine ok.goOn rfl rfl rfl rfl (fun _ => ?_) nofun (Nat.zero_le _) limit
    simpa [Working.rest] using all

theorem packetEnd {batch : List FixMessagePacket} (here : worker.working = .packetEnd batch) :
    CountsOk { worker with working := if worker.complete then .finished else .packet batch } := by
  have all := ok.going (by rw [here]; exact nofun)
  have left := ok.batch
  have limit := ok.limit
  rw [here] at all left limit
  simp only [Working.rest, Working.counted, if_true] at all left limit
  split
  next reached =>
    refine ok.goOn rfl rfl rfl rfl (absurd rfl) (fun _ => .inr ?_) (Nat.zero_le _) limit
    exact ⟨batch, all, Nat.lt_succ_of_le left, reached⟩
  next below =>
    refine ok.goOn rfl rfl rfl rfl (fun _ => all) nofun ?_ fun small => ?_
    next => exact Nat.le_trans left (show 31 ≤ 32 by decide)
    next =>
      have same := ok.processed_of_small small
      simp only [complete, decide_eq_true_eq, same] at below
      simp only [Working.counted, Bool.false_eq_true, if_false]
      omega

theorem work (timestampNs : Nat) (clOrdId symbol : Bytes) :
    CountsOk (worker.work priceText timestampNs clOrdId symbol) := by
  unfold FixWorker.work
  cases here : worker.working with
  | head => exact ok
  | packet batch =>
    cases batch with
    | nil => exact ok.packetsDone here
    | cons packet batch => exact ok.handle here
  | canPush packet batch =>
    have going := ok.going (by rw [here]; exact nofun)
    have left := ok.batch
    have limit := ok.limit
    rw [here] at going left limit
    dsimp only
    unfold offer
    split <;> exact ok.goOn rfl rfl rfl rfl (fun _ => going) nofun left limit
  | push batch =>
    have going := ok.going (by rw [here]; exact nofun)
    have left := ok.batch
    have limit := ok.limit
    rw [here] at going left limit
    unfold FixWorker.push
    dsimp only
    split <;> exact ok.goOn rfl rfl rfl rfl (fun _ => going) nofun left limit
  | packetEnd batch => exact ok.packetEnd here
  | finished => exact ok

theorem takeBatch (packets : List FixMessagePacket) : CountsOk (worker.takeBatch packets) := by
  unfold FixWorker.takeBatch
  split
  next here =>
    have all := ok.going (by rw [here]; exact nofun)
    have limit := ok.limit
    rw [here] at all limit
    simp only [Working.rest, List.append_nil] at all
    cases packets with
    | nil =>
      refine ok.goOn rfl rfl rfl rfl (fun _ => ?_) nofun (Nat.zero_le _) limit
      simp [Working.rest, all]
    | cons packet packets =>
      refine ok.goOn rfl rfl rfl rfl (fun _ => ?_) nofun ?_ limit
      next => simp [Working.rest, all]
      next => exact List.length_take_le ..
  next => exact ok

theorem leave : CountsOk worker.leave := by
  unfold FixWorker.leave
  split
  next here =>
    have all := ok.going (by rw [here]; exact nofun)
    have limit := ok.limit
    rw [here] at all limit
    simp only [Working.rest, List.append_nil] at all
    refine ok.goOn rfl rfl rfl rfl (absurd rfl) (fun _ => .inl all) (Nat.zero_le _) fun small => ?_
    exact Nat.le_trans (limit small) (Nat.sub_le _ _)
  next => exact ok

theorem write : CountsOk worker.write := by
  unfold FixWorker.write
  split
  next => split <;> exact { ok with }
  next => split <;> exact { ok with }
  next => exact { ok with }
  next => exact { ok with }
  next => exact ok

theorem destroy : CountsOk worker.destroy := by
  unfold FixWorker.destroy
  split
  next => exact { ok with }
  next => exact ok

theorem step (action : Action) : CountsOk (worker.step priceText action) := by
  cases action with
  | takeBatch packets => exact ok.takeBatch packets
  | leave => exact ok.leave
  | work timestampNs clOrdId symbol => exact ok.work timestampNs clOrdId symbol
  | write => exact ok.write
  | destroy => exact ok.destroy

omit ok in
theorem run (priceText : Int → Bytes) (expectedMessages : Nat) (cells : Nat → LogMessage)
    (actions : List Action) :
    CountsOk (FixWorker.run priceText expectedMessages cells actions) := by
  unfold FixWorker.run
  exact List.foldlRecOn actions _ (start expectedMessages cells) fun _ ok action _ => ok.step action

end CountsOk

theorem step_expectedMessages (action : Action) :
    (worker.step priceText action).expectedMessages = worker.expectedMessages := by
  cases action with
  | takeBatch packets =>
    simp only [step, takeBatch]
    split <;> rfl
  | leave =>
    simp only [step, leave]
    split <;> rfl
  | work timestampNs clOrdId symbol =>
    simp only [step, work, handle, offer, push]
    split
    case h_4 => split <;> rfl
    all_goals rfl
  | write =>
    simp only [step, write, startPop]
    split
    case h_1 => split <;> rfl
    case h_2 => split <;> rfl
    all_goals rfl
  | destroy =>
    simp only [step, destroy]
    split <;> rfl

theorem run_expectedMessages (priceText : Int → Bytes) (expectedMessages : Nat)
    (cells : Nat → LogMessage) (actions : List Action) :
    (run priceText expectedMessages cells actions).expectedMessages = expectedMessages := by
  unfold run
  generalize begun : start expectedMessages cells = worker
  have same : worker.expectedMessages = expectedMessages := begun ▸ rfl
  clear begun
  induction actions generalizing worker with
  | nil => exact same
  | cons action actions ih => exact ih _ ((step_expectedMessages action).trans same)

theorem treats_in_order (priceText : Int → Bytes) (expectedMessages : Nat)
    (cells : Nat → LogMessage) (actions : List Action) :
    let worker := run priceText expectedMessages cells actions
    let latencies := worker.handled.map FixMessagePacket.latencyNs
    worker.handled <+: worker.popped ∧
      worker.telemetry.messagesProcessed = u32 worker.handled.length ∧
      worker.telemetry.totalLatencyNs = u64 latencies.sum ∧
      worker.telemetry.minLatencyNs =
        latencies.foldl (fun least latency => min latency least) (2 ^ 64 - 1) ∧
      worker.telemetry.maxLatencyNs = latencies.foldl (fun most latency => max latency most) 0 ∧
      (worker.released = worker.handled.flatMap fun packet => packet.ringHdr.toList) ∧
      (worker.working = .finished → worker.handled = worker.popped ∨
        expectedMessages ≤ worker.telemetry.messagesProcessed ∧
          worker.popped.length < worker.handled.length + 32) ∧
      (expectedMessages < 2 ^ 32 → worker.handled.length ≤ max expectedMessages 1) := by
  intro worker latencies
  have ok : CountsOk worker := .run priceText expectedMessages cells actions
  have expected : worker.expectedMessages = expectedMessages :=
    run_expectedMessages priceText expectedMessages cells actions
  refine ⟨?_, ok.processed, ok.total, ok.least, ok.most, ok.released, ?_, ?_⟩
  next =>
    by_cases here : worker.working = .finished
    next =>
      obtain all | ⟨dropped, all, -⟩ := ok.stopped here
      next => exact all ▸ List.prefix_rfl
      next => exact ⟨dropped, all⟩
    next => exact ⟨_, ok.going here⟩
  next =>
    intro here
    refine (ok.stopped here).imp_right ?_
    rintro ⟨dropped, all, few, reached⟩
    refine ⟨expected ▸ of_decide_eq_true reached, ?_⟩
    rw [← all, List.length_append]
    omega
  next =>
    intro small
    have limit := ok.limit (expected ▸ small)
    rw [expected] at limit
    split at limit <;> omega

end FixWorker

end HftFixEngine.Worker
