import HftFixEngine.Monitoring.MonitorRows
import HftFixEngine.Shared.Run

set_option autoImplicit false

namespace HftFixEngine.Monitoring

open Common Engine Protocol Word

-- Registers that no thread stores to once `g_running` is down. `MatchingWorker` takes it down itself at
-- its end, whatever the receiver is at; `HftOrderBookEngine` leaves it to the launcher behind the joins.
def Register.Settled (worker : WorkerKind) : Register → Prop
  | .counter _ => True
  | _ => worker = .hftOrderBookEngine

structure Monitor.Final (settled : Register → Prop) (gRunning : Bool) (memory : Sample)
    (monitor : Monitor) : Prop where
  loading : ∀ pending, monitor.phase = .loading true pending → gRunning = false ∧
    ∀ register ∈ Sample.finalLoads, settled register → register ∉ pending →
      monitor.sample register = memory register
  rows : ∀ row ∈ monitor.rows, row.final = true → gRunning = false ∧
    ∀ register ∈ Sample.finalLoads, settled register → row.sample register = memory register

namespace Monitor.Final

variable {settled : Register → Prop} {gRunning : Bool} {memory : Sample} {monitor : Monitor}

theorem start : Final settled true memory {} where
  loading := by simp
  rows := fun _ missing => absurd missing List.not_mem_nil

theorem running (final : Final settled true memory monitor) {later : Bool} {now : Sample} :
    Final settled later now monitor where
  loading := fun pending phase => absurd (final.loading pending phase).1 (by decide)
  rows := fun row member last => absurd (final.rows row member last).1 (by decide)

theorem later (final : Final settled gRunning memory monitor) {now : Sample}
    (same : ∀ register, settled register → now register = memory register) :
    Final settled gRunning now monitor where
  loading := by
    intro pending phase
    obtain ⟨stopped, loaded⟩ := final.loading pending phase
    refine ⟨stopped, fun register member fixed missing => ?_⟩
    exact (loaded register member fixed missing).trans (same register fixed).symm
  rows := by
    intro row member last
    obtain ⟨stopped, loaded⟩ := final.rows row member last
    exact ⟨stopped, fun register member fixed => (loaded register member fixed).trans
      (same register fixed).symm⟩

theorem step (final : Final settled gRunning memory monitor) :
    Final settled gRunning memory (monitor.step gRunning memory) := by
  unfold Monitor.step
  split
  case h_1 =>
    refine { final with loading := ?_ }
    intro pending phase
    cases gRunning with
    | true => simp at phase
    | false =>
      refine ⟨rfl, fun register member _ missing => absurd member ?_⟩
      obtain rfl : Sample.finalLoads = pending := by simpa [Sample.loads] using phase
      exact missing
  case h_2 last next pending here =>
    refine { final with loading := ?_ }
    rintro _ ⟨⟩
    obtain ⟨stopped, loaded⟩ := final.loading _ here
    refine ⟨stopped, ?_⟩
    intro register member fixed missing
    dsimp only
    by_cases same : register = next
    next => rw [same, Function.update_self]
    next =>
      rw [Function.update_of_ne same]
      exact loaded register member fixed (by simp [same, missing])
  case h_3 here =>
    obtain ⟨stopped, loaded⟩ := final.loading _ here
    constructor
    case loading => simp
    case rows =>
      rw [List.forall_mem_append, List.forall_mem_singleton]
      refine ⟨final.rows, fun _ => ⟨stopped, fun register member fixed => ?_⟩⟩
      exact loaded register member fixed (by simp)
  case h_4 =>
    constructor
    case loading => simp
    case rows =>
      rw [List.forall_mem_append, List.forall_mem_singleton]
      exact ⟨final.rows, by simp [nextRow]⟩
  case h_5 => exact final

end Monitor.Final

namespace Session

variable {T : Type} {protocol : ProtocolType} {worker : WorkerKind} {session : Session T}

def Ended (worker : WorkerKind) (session : Session T) : Prop :=
  session.stores = [] ∧
    (worker = .hftOrderBookEngine →
      session.handoff.sending.packet? = none ∧ session.counting = false)

instance : Decidable (session.Ended worker) :=
  inferInstanceAs (Decidable (_ ∧ (_ → _ ∧ _)))

-- No signal interrupts the run: `g_running` goes down behind the end of the worker, with the order
-- book engine also behind the end of the receiver, and a thread at its end makes no more steps.
def Orderly (worker : WorkerKind) (session : Session T) : Event T → Prop
  | .receive _ => worker = .hftOrderBookEngine → session.gRunning = true
  | .send => worker = .hftOrderBookEngine → session.gRunning = true
  | .work _ => session.gRunning = true
  | .monitor => True
  | .stop => session.Ended worker

instance (event : Event T) : Decidable (session.Orderly worker event) :=
  match event with
  | .receive _ => inferInstanceAs (Decidable (_ → _))
  | .send => inferInstanceAs (Decidable (_ → _))
  | .work _ => inferInstanceAs (Decidable (_ = _))
  | .monitor => inferInstanceAs (Decidable True)
  | .stop => inferInstanceAs (Decidable (session.Ended worker))

theorem receive_worker (packet : T) :
    (session.receive packet).stores = session.stores ∧
      (session.receive packet).gRunning = session.gRunning := by
  unfold receive
  split
  next => exact ⟨rfl, rfl⟩
  next => split <;> exact ⟨rfl, rfl⟩

theorem send_worker :
    session.send.stores = session.stores ∧ session.send.gRunning = session.gRunning := by
  unfold send
  split
  next => exact ⟨rfl, rfl⟩
  next => split <;> exact ⟨rfl, rfl⟩

theorem work_receiver (ok : Ok protocol session) (observe : T → Packet) :
    let now := session.work protocol observe
    now.gRunning = session.gRunning ∧ now.handoff.sending = session.handoff.sending ∧
      now.handoff.queue.accepted = session.handoff.queue.accepted := by
  obtain ⟨-, sending, accepted, -⟩ := ok.handoff.work_cases packetsPerBatch observe
  unfold work
  split
  next => exact ⟨rfl, rfl, rfl⟩
  next => split <;> exact ⟨rfl, sending, accepted⟩

structure Settled (worker : WorkerKind) (session : Session T) : Prop where
  kept : worker = .hftOrderBookEngine →
    session.handoff.queue.accepted.length + session.pushing = session.received
  ended : session.gRunning = false → session.Ended worker
  final : session.monitor.Final (Register.Settled worker) session.gRunning session.memory

namespace Settled

theorem start (cells : Nat → T) : Settled worker (start cells) where
  kept := fun _ => rfl
  ended := by simp [Session.start]
  final := Monitor.Final.start

theorem running (settled : Settled worker session) (going : session.gRunning = true) {now : Session T}
    (still : now.gRunning = true) (monitor : now.monitor = session.monitor)
    (kept : worker = .hftOrderBookEngine →
      now.handoff.queue.accepted.length + now.pushing = now.received) : Settled worker now where
  kept := kept
  ended := by simp [still]
  final := by
    have final := settled.final
    rw [going] at final
    exact monitor ▸ final.running

-- The receiver takes a step beside a matching worker, which may have ended.
theorem beside (settled : Settled .matchingWorker session) {now : Session T}
    (monitor : now.monitor = session.monitor) (shared : now.shared = session.shared)
    (worker : now.stores = session.stores ∧ now.gRunning = session.gRunning) :
    Settled .matchingWorker now where
  kept := fun other => absurd other (by decide)
  ended := by
    intro stopped
    refine ⟨?_, fun other => absurd other (by decide)⟩
    rw [worker.1]
    exact (settled.ended (worker.2 ▸ stopped)).1
  final := by
    rw [monitor, worker.2]
    refine settled.final.later ?_
    intro register fixed
    cases register with
    | counter counter => exact congrFun shared counter
    | _ => exact absurd fixed (by simp [Register.Settled])

theorem receive (settled : Settled .hftOrderBookEngine session) (ok : Ok protocol session) (packet : T)
    (going : session.gRunning = true) : Settled .hftOrderBookEngine (session.receive packet) := by
  unfold Session.receive
  split
  next => exact settled
  next =>
    split
    next ready =>
      have kept := settled.kept rfl
      have idle := ok.handoff.idle ready
      refine settled.running going going rfl fun _ => ?_
      simp only [(ok.handoff.startSend_outstanding idle packet).1]
      simp only [pushing, ready, Handoff.startSend, Sending.packet?, Option.toList_none, List.length_nil,
        Option.toList_some, List.length_singleton] at kept ⊢
      omega
    next => exact settled

theorem send (settled : Settled .hftOrderBookEngine session) (ok : Ok protocol session)
    (going : session.gRunning = true) : Settled .hftOrderBookEngine session.send := by
  have kept := settled.kept rfl
  unfold Session.send
  split
  next => exact settled.running going going rfl fun _ => kept
  next =>
    cases sending : session.handoff.sending.packet? with
    | none => exact settled
    | some packet =>
      simp only [pushing, sending, Option.toList_some, List.length_singleton] at kept
      refine settled.running going going rfl fun _ => ?_
      obtain ⟨-, -, ⟨still, same, -⟩ | ⟨ready, grown, -⟩ | ⟨-, stopped, -, -⟩⟩ :=
        ok.handoff.send_cases session.gRunning sending
      next => simpa only [pushing, still, same, Option.toList_some, List.length_singleton] using kept
      next => simpa only [pushing, ready, grown, Sending.packet?, Option.toList_none, List.length_nil,
          List.length_append, List.length_singleton] using kept
      next => simp [going] at stopped

theorem work (settled : Settled worker session) (ok : Ok protocol session) (observe : T → Packet)
    (going : session.gRunning = true) : Settled worker (session.work protocol observe) := by
  obtain ⟨monitor, -, received⟩ := session.work_frame protocol observe
  obtain ⟨still, sending, accepted⟩ := work_receiver ok observe
  refine settled.running going (still.trans going) monitor ?_
  intro engine
  rw [received, accepted, pushing, sending]
  exact settled.kept engine

theorem step (settled : Settled worker session) (ok : Ok protocol session) {event : Event T}
    (orderly : session.Orderly worker event) : Settled worker (session.step protocol event) := by
  cases event with
  | receive packet =>
    cases worker with
    | matchingWorker =>
      obtain ⟨monitor, shared, -, -⟩ := session.receive_frame packet
      exact settled.beside monitor shared (receive_worker packet)
    | hftOrderBookEngine => exact settled.receive ok packet (orderly rfl)
  | send =>
    cases worker with
    | matchingWorker =>
      obtain ⟨monitor, shared, -⟩ := session.send_frame
      exact settled.beside monitor shared send_worker
    | hftOrderBookEngine => exact settled.send ok (orderly rfl)
  | work observe => exact settled.work ok observe orderly
  | monitor => exact ⟨settled.kept, settled.ended, settled.final.step⟩
  | stop =>
    refine ⟨settled.kept, fun _ => orderly, ?_⟩
    have final := settled.final
    cases going : session.gRunning with
    | true =>
      rw [going] at final
      exact final.running
    | false =>
      rw [going] at final
      exact final

end Settled

theorem run_settled (cells : Nat → T) (schedule : List (Event T))
    (few : (run protocol cells schedule).received < 2 ^ 32)
    (orderly : Run.Guarded (step protocol) (Orderly worker) (start cells) schedule) :
    Settled worker (run protocol cells schedule) := by
  induction schedule using List.reverseRecOn with
  | nil => exact Settled.start cells
  | append_singleton schedule event ih =>
    obtain ⟨before, allowed, -⟩ := Run.guarded_append.mp orderly
    simp only [run, List.foldl_append, List.foldl_cons, List.foldl_nil] at few ih ⊢
    have earlier := Nat.lt_of_le_of_lt (step_received event) few
    exact (ih earlier before).step (run_ok cells schedule earlier).1 allowed

theorem Ok.counted (ok : Ok protocol session) (stored : session.stores = [])
    (few : session.received < 2 ^ 32) :
    let packets := session.handoff.parsed.map Prod.snd
    session.memory.processed = unsuppressed protocol packets ∧
      session.memory.approved + session.memory.rejected = unsuppressed protocol packets ∧
      u64 (session.memory (.counter .totalLatencyNs)) =
        u64 (session.memory (.counter .approvedTotalLatencyNs) +
          session.memory (.counter .rejectedTotalLatencyNs)) := by
  intro packets
  obtain ⟨old, publishing⟩ := ok.publishing
  have storing := publishing.storing
  rw [stored] at storing
  have shared := storing.finished
  obtain ⟨approved, rejected, all, tally⟩ := (Accounts.Follows.start.run protocol packets).tally
  rw [← ok.accounts] at tally
  have bound : approved + rejected < 2 ^ 32 := by
    have seen := unsuppressed_le protocol packets
    have parsed := ok.parsed_le
    have accepted := ok.accepted
    rw [all]
    simp only [unsuppressed, packets, List.length_map] at seen ⊢
    omega
  have lawful := tally.lawful_iff.mpr bound
  simp only [Sample.processed, Sample.approved, Sample.rejected, memory, shared, Counter.value]
  have sum := lawful.all
  rw [all] at sum
  exact ⟨lawful.processed.trans sum, sum, lawful.latency⟩

theorem Ok.queueLen (ok : Ok protocol session) :
    session.handoff.parsed.length + session.handoff.batch.length + session.memory.queueLen =
      session.handoff.queue.accepted.length := by
  have size := ok.handoff.queue.size_eq
  have returned := congrArg List.length ok.handoff.returned
  have moved := congrArg List.length ok.handoff.queue.accepted_eq
  simp only [List.length_append, List.length_map] at returned moved
  rw [SPSCQueue.size] at size
  simp only [Sample.queueLen, memory, size]
  omega

theorem final_row_exact (worker : WorkerKind) (cells : Nat → T) (schedule : List (Event T))
    (few : (run protocol cells schedule).received < 2 ^ 32)
    (orderly : Run.Guarded (step protocol) (Orderly worker) (start cells) schedule) :
    let session := run protocol cells schedule
    let packets := session.handoff.parsed.map Prod.snd
    session.handoff.parsed.map Prod.fst <+: session.handoff.queue.accepted ∧
      ∀ row ∈ session.monitor.rows, row.final = true →
        row.sample.processed = unsuppressed protocol packets ∧
          row.sample.approved + row.sample.rejected = unsuppressed protocol packets ∧
          u64 (row.sample (.counter .totalLatencyNs)) =
            u64 (row.sample (.counter .approvedTotalLatencyNs) +
              row.sample (.counter .rejectedTotalLatencyNs)) ∧
          (worker = .hftOrderBookEngine →
            row.sample .framesCaptured = session.handoff.queue.accepted.length ∧
              session.handoff.parsed.length + session.handoff.batch.length + row.sample.queueLen =
                session.handoff.queue.accepted.length) := by
  intro session packets
  have settled := run_settled cells schedule few orderly
  have ok := (run_ok cells schedule few).1
  refine ⟨⟨_, ok.handoff.accepted_eq⟩, ?_⟩
  intro row member last
  obtain ⟨stopped, loaded⟩ := settled.final.rows row member last
  have ended := settled.ended stopped
  obtain ⟨processed, gate, latency⟩ := ok.counted ended.1 few
  have counter (counter : Counter) (member : Register.counter counter ∈ Sample.finalLoads) :
      row.sample (.counter counter) = session.memory (.counter counter) :=
    loaded (.counter counter) member trivial
  simp only [Sample.processed, Sample.approved, Sample.rejected] at *
  rw [counter .messagesProcessed (by decide), counter .riskApproved (by decide),
    counter .riskRejected (by decide), counter .totalLatencyNs (by decide),
    counter .approvedTotalLatencyNs (by decide), counter .rejectedTotalLatencyNs (by decide)]
  refine ⟨processed, gate, latency, ?_⟩
  rintro rfl
  have frames : session.memory .framesCaptured = session.handoff.queue.accepted.length := by
    have captured := ok.captured
    have received := ok.received
    have kept := settled.kept rfl
    have none := (ended.2 rfl).2
    simp only [session, memory]
    rw [none, Bool.toNat_false] at received
    omega
  have left := ok.queueLen
  simp only [Sample.queueLen] at left ⊢
  rw [loaded .framesCaptured (by decide) rfl, loaded .writePos (by decide) rfl,
    loaded .readPos (by decide) rfl]
  exact ⟨frames, left⟩

theorem final_row_exact_left :
    let push : List (Event Nat) := .receive 7 :: List.replicate 4 .send
    let schedule := push ++ List.replicate 14 (.work fun _ => nullPacket) ++
      List.replicate 13 .monitor ++ push ++ .stop :: List.replicate 11 .monitor
    let session := run .fix (fun _ => 0) schedule
    session.monitor.rows.map (fun row => (row.final, row.sample.processed, row.sample.queueLen)) =
        [(false, 1, 0), (true, 1, 1)] ∧
      ∀ row ∈ session.monitor.rows, row.final = true →
        row.sample.processed = unsuppressed .fix (session.handoff.parsed.map Prod.snd) ∧
          row.sample .framesCaptured = session.handoff.queue.accepted.length := by
  intro push schedule session
  refine ⟨by decide +kernel, ?_⟩
  intro row member last
  obtain ⟨processed, -, -, engine⟩ :=
    (final_row_exact .hftOrderBookEngine (fun _ => 0) schedule (by decide +kernel)
      (by decide +kernel)).2 row member last
  exact ⟨processed, (engine rfl).1⟩

end Session

end HftFixEngine.Monitoring
