import HftFixEngine.Common.Handoff
import HftFixEngine.Engine.Pipeline

set_option autoImplicit false

namespace HftFixEngine.Networking

open Common Engine

def udpSlots : Nat := 8192

def udpSlotSize : Nat := 512

structure UdpPacket where
  slot : Nat
  payloadLen : Nat
  received : List UInt8
  deriving DecidableEq, Repr

inductive UdpReceiver where
  | loopHead
  | recv
  | checkProducer
  | push
  | left
  deriving DecidableEq, Repr

structure UdpFallback where
  udpRing : Nat → Nat → UInt8
  udpSlot : Nat := 0
  gRunning : Bool := true
  gProducerDone : Bool := false
  emptyChecks : Nat := 0
  receiver : UdpReceiver := .loopHead
  handoff : Handoff UdpPacket (List UInt8)

-- `datagram` is what the socket has for a call of `recv`, with nothing for an empty socket; `stop` and
-- `producerDone` are stores of other threads to the flags.
inductive UdpEvent where
  | receiver (datagram : List UInt8)
  | worker
  | producerDone
  | stop
  deriving DecidableEq, Repr

namespace UdpFallback

def payload (udpRing : Nat → Nat → UInt8) (packet : UdpPacket) : List UInt8 :=
  Slots.first (udpRing packet.slot) packet.payloadLen

def outstanding (state : UdpFallback) : List UdpPacket := state.handoff.outstanding queueCapacity

-- The slot is written before anything is known about the queue.
def store (received : List UInt8) (state : UdpFallback) : UdpFallback :=
  { state with
    udpRing :=
      Function.update state.udpRing state.udpSlot
        (Slots.overwrite (state.udpRing state.udpSlot) received)
    handoff := state.handoff.startSend ⟨state.udpSlot, received.length, received⟩
    receiver := .push }

def stepReceiver (datagram : List UInt8) (state : UdpFallback) : UdpFallback :=
  match state.receiver with
  | .loopHead => { state with receiver := if state.gRunning then .recv else .left }
  | .recv =>
    match datagram.take udpSlotSize with
    | [] => { state with receiver := .checkProducer }
    | byte :: bytes => state.store (byte :: bytes)
  | .checkProducer =>
    if state.gProducerDone then
      { state with
        emptyChecks := state.emptyChecks + 1
        receiver :=
          if state.emptyChecks + 1 ≥ ReceiverKind.udpSocket.inactivityLimit then .left
          else .loopHead }
    else { state with receiver := .loopHead }
  | .push =>
    let handoff := state.handoff.send queueCapacity state.gRunning
    match handoff.sending with
    | .ready =>
      { state with
        handoff
        udpSlot := (state.udpSlot + 1) % udpSlots
        receiver := .loopHead }
    | _ => { state with handoff }
  | .left => state

def step (state : UdpFallback) : UdpEvent → UdpFallback
  | .receiver datagram => state.stepReceiver datagram
  | .worker =>
    { state with handoff := state.handoff.work queueCapacity packetsPerBatch (payload state.udpRing) }
  | .producerDone => { state with gProducerDone := true }
  | .stop => { state with gRunning := false }

def run (state : UdpFallback) (events : List UdpEvent) : UdpFallback := events.foldl step state

theorem run_append (state : UdpFallback) (events later : List UdpEvent) :
    state.run (events ++ later) = (state.run events).run later :=
  List.foldl_append

def start (memory : Nat → Nat → UInt8) (cells : Nat → UdpPacket) : UdpFallback where
  udpRing := memory
  handoff := { queue := { buffer := cells } }

def Writes (state : UdpFallback) : UdpEvent → Prop
  | .receiver datagram => state.receiver = .recv ∧ datagram ≠ []
  | _ => False

def WritesFreeSlot (state : UdpFallback) (event : UdpEvent) : Prop :=
  state.Writes event → state.udpSlot ∉ state.outstanding.map UdpPacket.slot

def HasRoom (state : UdpFallback) (event : UdpEvent) : Prop :=
  state.Writes event → state.outstanding.length < udpSlots

structure Ok (state : UdpFallback) : Prop where
  handoff : Handoff.Ok queueCapacity state.handoff
  ready : state.receiver ≠ .push → state.handoff.sending = .ready
  pushing : state.receiver = .push →
    ∃ packet, state.handoff.sending.packet? = some packet ∧ packet.slot = state.udpSlot
  numbered : state.handoff.queue.accepted.map UdpPacket.slot =
    Ring.cellsOf udpSlots state.handoff.queue.accepted.length
  next : state.udpSlot = state.handoff.queue.accepted.length % udpSlots ∨
    (state.gRunning = false ∧ (state.receiver = .loopHead ∨ state.receiver = .left))

namespace Ok

variable {state : UdpFallback}

theorem start (memory : Nat → Nat → UInt8) (cells : Nat → UdpPacket) :
    Ok (start memory cells) where
  handoff := Handoff.Ok.start cells
  ready := fun _ => rfl
  pushing := nofun
  numbered := rfl
  next := .inl rfl

theorem outstanding_slots (ok : Ok state) :
    state.outstanding.map UdpPacket.slot =
      (Ring.cellsOf udpSlots state.handoff.queue.accepted.length).drop
        state.handoff.parsed.length := by
  rw [outstanding, ok.handoff.outstanding_eq, List.map_drop, ok.numbered]

theorem next_reading (ok : Ok state) (inside : state.receiver ≠ .loopHead ∧ state.receiver ≠ .left) :
    state.udpSlot = state.handoff.queue.accepted.length % udpSlots := by
  obtain next | ⟨-, outside⟩ := ok.next
  next => exact next
  next => exact absurd outside (not_or.mpr inside)

theorem slot_in_use_iff (ok : Ok state) (reading : state.receiver = .recv) :
    state.udpSlot ∈ state.outstanding.map UdpPacket.slot ↔ udpSlots ≤ state.outstanding.length := by
  rw [ok.outstanding_slots, ok.next_reading (by simp [reading]),
    Ring.next_mem_drop_cellsOf_iff (by decide), outstanding,
    ok.handoff.outstanding_eq, List.length_drop]

theorem writesFreeSlot_iff (ok : Ok state) (event : UdpEvent) :
    state.WritesFreeSlot event ↔ state.HasRoom event := by
  cases event with
  | receiver datagram =>
    refine imp_congr_right ?_
    rintro ⟨reading, -⟩
    rw [ok.slot_in_use_iff reading, Nat.not_le]
  | _ => exact ⟨fun _ => nofun, fun _ => nofun⟩

theorem idle (ok : Ok state) (here : state.receiver ≠ .push) :
    state.handoff.queue.producer = .idle :=
  ok.handoff.idle (ok.ready here)

theorem store (ok : Ok state) (reading : state.receiver = .recv) (received : List UInt8) :
    Ok (state.store received) := by
  have idle := ok.idle (by simp [reading])
  have accepted : (state.store received).handoff.queue.accepted = state.handoff.queue.accepted :=
    (ok.handoff.startSend_outstanding idle _).1
  constructor
  case handoff => exact ok.handoff.startSend idle _
  case ready => exact fun notPushing => absurd rfl notPushing
  case pushing => exact fun _ => ⟨_, rfl, rfl⟩
  case numbered =>
    rw [accepted]
    exact ok.numbered
  case next =>
    rw [accepted]
    exact .inl (ok.next_reading (by simp [reading]))

theorem push (ok : Ok state) (pushing : state.receiver = .push) (datagram : List UInt8) :
    Ok (state.stepReceiver datagram) := by
  obtain ⟨packet, sending, slot⟩ := ok.pushing pushing
  have next := ok.next_reading (by simp [pushing])
  have numbered := ok.numbered
  obtain ⟨handoff, -, stays | accepted | gaveUp⟩ := ok.handoff.send_cases state.gRunning sending
  all_goals simp only [stepReceiver, pushing]
  next =>
    obtain ⟨still, accepted, -⟩ := stays
    split
    next ready => simp [ready, Sending.packet?] at still
    next =>
      refine ⟨handoff, ?_, ?_, ?_, ?_⟩
      next => exact fun notPushing => absurd rfl notPushing
      next => exact fun _ => ⟨packet, still, slot⟩
      next =>
        rw [accepted]
        exact numbered
      next =>
        rw [accepted]
        exact .inl next
  next =>
    obtain ⟨ready, accepted, -⟩ := accepted
    rw [ready]
    refine ⟨handoff, fun _ => ready, by simp, ?_, ?_⟩
    next =>
      rw [accepted, List.map_append, List.length_append, numbered, List.length_singleton,
        Ring.cellsOf_succ, ← next, ← slot]
      rfl
    next =>
      rw [accepted, List.length_append, List.length_singleton, next]
      exact .inl (Nat.mod_add_mod _ _ _)
  next =>
    obtain ⟨ready, stopped, accepted, -⟩ := gaveUp
    rw [ready]
    refine ⟨handoff, fun _ => ready, by simp, ?_, .inr ⟨stopped, .inl rfl⟩⟩
    rw [accepted]
    exact numbered

theorem moves (ok : Ok state) (here : state.receiver ≠ .push) {receiver : UdpReceiver}
    {emptyChecks : Nat} (there : receiver ≠ .push)
    (next : state.udpSlot = state.handoff.queue.accepted.length % udpSlots ∨
      (state.gRunning = false ∧ (receiver = .loopHead ∨ receiver = .left))) :
    Ok { state with receiver, emptyChecks } :=
  { ok with
    ready := fun _ => ok.ready here
    pushing := fun pushing => absurd pushing there
    next }

theorem stepReceiver (ok : Ok state) (datagram : List UInt8) : Ok (state.stepReceiver datagram) := by
  cases here : state.receiver with
  | loopHead =>
    simp only [UdpFallback.stepReceiver, here]
    obtain next | ⟨stopped, -⟩ := ok.next
    next => exact ok.moves (by simp [here]) (by split <;> nofun) (.inl next)
    next => exact ok.moves (by simp [here]) (by split <;> nofun) (.inr ⟨stopped, by simp [stopped]⟩)
  | recv =>
    simp only [UdpFallback.stepReceiver, here]
    split
    next => exact ok.moves (by simp [here]) nofun (.inl (ok.next_reading (by simp [here])))
    next => exact ok.store here _
  | checkProducer =>
    have next := ok.next_reading (by simp [here])
    simp only [UdpFallback.stepReceiver, here]
    split
    next => exact ok.moves (by simp [here]) (by split <;> nofun) (.inl next)
    next => exact ok.moves (by simp [here]) nofun (.inl next)
  | push => exact ok.push here datagram
  | left =>
    simp only [UdpFallback.stepReceiver, here]
    exact ok

theorem step (ok : Ok state) (event : UdpEvent) : Ok (state.step event) := by
  cases event with
  | receiver datagram => exact ok.stepReceiver datagram
  | worker =>
    obtain ⟨handoff, sending, accepted, -⟩ :=
      ok.handoff.work_cases packetsPerBatch (payload state.udpRing)
    constructor
    case handoff => exact handoff
    case ready => exact fun here => sending.trans (ok.ready here)
    case pushing => simpa only [UdpFallback.step, sending] using ok.pushing
    case numbered => simpa only [UdpFallback.step, accepted] using ok.numbered
    case next => simpa only [UdpFallback.step, accepted] using ok.next
  | producerDone => exact { ok with }
  | stop => exact { ok with next := ok.next.imp id fun outside => ⟨rfl, outside.2⟩ }

end Ok

structure Intact (state : UdpFallback) : Prop where
  carried : state.handoff.Carries queueCapacity fun packet =>
    payload state.udpRing packet = packet.received
  parsed : ∀ reading ∈ state.handoff.parsed, reading.2 = reading.1.received

namespace Intact

variable {state : UdpFallback}

theorem start (memory : Nat → Nat → UInt8) (cells : Nat → UdpPacket) :
    Intact (start memory cells) where
  carried := Handoff.Carries.start cells
  parsed := nofun

theorem store (intact : Intact state) (ok : Ok state) (reading : state.receiver = .recv)
    (free : state.udpSlot ∉ state.outstanding.map UdpPacket.slot) (received : List UInt8) :
    Intact (state.store received) := by
  have elsewhere : state.handoff.Carries queueCapacity fun packet =>
      payload (state.store received).udpRing packet = packet.received := by
    constructor
    case outstanding =>
      intro packet member
      have other : packet.slot ≠ state.udpSlot := by
        intro meet
        exact free (meet ▸ List.mem_map_of_mem member)
      rw [← intact.carried.outstanding packet member]
      simp only [payload, UdpFallback.store, Function.update_of_ne other]
    case sending =>
      rw [ok.ready (by simp [reading])]
      nofun
  refine ⟨elsewhere.startSend ok.handoff (ok.idle (by simp [reading])) ?_, intact.parsed⟩
  simp only [payload, UdpFallback.store, Function.update_self]
  exact Slots.first_overwrite _ _

theorem stepReceiver (intact : Intact state) (ok : Ok state) {datagram : List UInt8}
    (free : state.WritesFreeSlot (.receiver datagram)) : Intact (state.stepReceiver datagram) := by
  cases here : state.receiver with
  | recv =>
    simp only [UdpFallback.stepReceiver, here]
    split
    next => exact { intact with }
    next given =>
      refine intact.store ok here (free ⟨here, ?_⟩) _
      rintro rfl
      simp at given
  | push =>
    have carried := intact.carried.send ok.handoff state.gRunning
    obtain ⟨-, parsed, -⟩ := ok.handoff.send state.gRunning
    simp only [UdpFallback.stepReceiver, here]
    split <;> exact ⟨carried, parsed ▸ intact.parsed⟩
  | loopHead | left =>
    simp only [UdpFallback.stepReceiver, here]
    exact { intact with }
  | checkProducer =>
    simp only [UdpFallback.stepReceiver, here]
    split <;> exact { intact with }

theorem step (intact : Intact state) (ok : Ok state) {event : UdpEvent}
    (free : state.WritesFreeSlot event) : Intact (state.step event) := by
  cases event with
  | receiver datagram => exact intact.stepReceiver ok free
  | worker =>
    obtain ⟨carried, readings⟩ :=
      intact.carried.work ok.handoff packetsPerBatch (payload state.udpRing)
    refine ⟨carried, ?_⟩
    intro reading member
    obtain before | ⟨good, seen⟩ := readings reading member
    next => exact intact.parsed reading before
    next => exact seen.trans good
  | producerDone => exact { intact with }
  | stop => exact { intact with }

end Intact

theorem writesFreeSlot_run_iff (memory : Nat → Nat → UInt8) (cells : Nat → UdpPacket)
    (events : List UdpEvent) :
    Run.Guarded step WritesFreeSlot (start memory cells) events ↔
      Run.Guarded step HasRoom (start memory cells) events := by
  have keeps (state : UdpFallback) (event : UdpEvent) (ok : Ok state) : Ok (state.step event) :=
    ok.step event
  exact Run.guarded_iff keeps (fun _ event ok => ok.writesFreeSlot_iff event)
    (Ok.start memory cells) events

theorem run_intact {memory : Nat → Nat → UInt8} {cells : Nat → UdpPacket} {events : List UdpEvent}
    (free : Run.Guarded step WritesFreeSlot (start memory cells) events) :
    Intact ((start memory cells).run events) := by
  have keeps (state : UdpFallback) (event : UdpEvent) (both : Ok state ∧ Intact state)
      (free : state.WritesFreeSlot event) : Ok (state.step event) ∧ Intact (state.step event) :=
    ⟨both.1.step event, both.2.step both.1 free⟩
  rw [← List.append_nil events] at free
  exact (Run.Guarded.invariant keeps ⟨Ok.start memory cells, Intact.start memory cells⟩ free).2

theorem slots_not_overwritten_iff (memory : Nat → Nat → UInt8) (cells : Nat → UdpPacket)
    (events : List UdpEvent) :
    (Run.Guarded step WritesFreeSlot (start memory cells) events ∧
        ∀ reading ∈ ((start memory cells).run events).handoff.parsed,
          reading.2 = reading.1.received) ↔
      Run.Guarded step HasRoom (start memory cells) events := by
  rw [← writesFreeSlot_run_iff]
  exact ⟨fun both => both.1, fun free => ⟨free, (run_intact free).parsed⟩⟩

structure Filled (n : Nat) (state : UdpFallback) : Prop where
  running : state.gRunning = true
  receiver : state.receiver = .loopHead
  udpSlot : state.udpSlot = n
  sending : state.handoff.sending = .ready
  batch : state.handoff.batch = [⟨0, 1, [1]⟩]
  parsed : state.handoff.parsed = []
  producer : state.handoff.queue.producer = .idle
  writePos : state.handoff.queue.writePos = n
  readPos : state.handoff.queue.readPos = 1
  cachedReadPos : state.handoff.queue.cachedReadPos = 0

namespace Filled

variable {state : UdpFallback} {n : Nat}

theorem receive (filled : Filled n state) (room : n + 1 < 8192) :
    Filled (n + 1) (state.run (List.replicate 5 (.receiver [1]))) := by
  have next : (n + 1) % 8192 = n + 1 := Nat.mod_eq_of_lt room
  -- Loop head, `recv`, and the three steps of a push that finds room at once.
  have executed : state.run (List.replicate 5 (.receiver [1])) = ?_ := by
    simp [run, List.replicate, step, stepReceiver, store, Handoff.startSend, Handoff.send,
      Execution.enterPush, Execution.produce, Sending.after, Execution.write, Execution.publish,
      filled.running, filled.receiver, filled.udpSlot, filled.batch, filled.parsed,
      filled.producer, filled.writePos, filled.readPos, filled.cachedReadPos, queueCapacity,
      udpSlotSize, udpSlots, next]
    rfl
  rw [executed]
  constructor <;> rfl

theorem rounds (filled : Filled n state) (k : Nat) (room : n + k < 8192) :
    Filled (n + k) (state.run (List.replicate k (List.replicate 5 (.receiver [1]))).flatten) := by
  induction k generalizing n state with
  | zero => exact filled
  | succ k ih =>
    rw [List.replicate_succ, List.flatten_cons, run, List.foldl_append]
    have next := ih (filled.receive (by omega)) (by omega)
    rwa [Nat.add_right_comm] at next

theorem lastPush (filled : Filled 8191 state) :
    let now := state.run (List.replicate 7 (.receiver [1]))
    now.gRunning = true ∧ now.receiver = .recv ∧ now.udpSlot = 0 ∧
      now.handoff.batch = [⟨0, 1, [1]⟩] ∧ now.handoff.parsed = [] := by
  simp [run, List.replicate, step, stepReceiver, store, Handoff.startSend, Handoff.send,
    Execution.enterPush, Execution.produce, Sending.after, Execution.write, Execution.publish,
    filled.running, filled.receiver, filled.udpSlot, filled.batch, filled.parsed,
    filled.producer, filled.writePos, filled.readPos, filled.cachedReadPos, queueCapacity,
    udpSlotSize, udpSlots]

theorem overwrites (filled : Filled 8191 state) :
    ¬ Run.Guarded step WritesFreeSlot state (List.replicate 7 (.receiver [1]) ++ [.receiver [2]]) ∧
      (state.run (List.replicate 7 (.receiver [1]) ++ [.receiver [2], .worker])).gRunning = true ∧
      (state.run (List.replicate 7 (.receiver [1]) ++ [.receiver [2], .worker])).handoff.parsed =
        [(⟨0, 1, [1]⟩, [2])] := by
  obtain ⟨running, reading, slot, batch, parsed⟩ := filled.lastPush
  refine ⟨?_, ?_⟩
  next =>
    intro free
    have inUse : (state.run (List.replicate 7 (.receiver [1]))).udpSlot ∈
        (state.run (List.replicate 7 (.receiver [1]))).outstanding.map UdpPacket.slot := by
      rw [slot, outstanding, Handoff.outstanding, batch]
      simp
    exact free.append.1 ⟨reading, List.cons_ne_nil _ _⟩ inUse
  next =>
    rw [run_append]
    generalize state.run (List.replicate 7 (.receiver [1])) = now at running reading slot batch parsed
    simp [run, step, stepReceiver, reading, udpSlotSize, store, Handoff.startSend, Handoff.work,
      running, batch, parsed, slot, payload, Slots.first, Slots.overwrite]

end Filled

def fillQueue : List UdpEvent :=
  List.replicate 5 (.receiver [1]) ++ List.replicate 5 .worker ++
    (List.replicate 8190 (List.replicate 5 (.receiver [1]))).flatten

def fresh : UdpFallback := start (fun _ _ => 0) fun _ => ⟨0, 0, []⟩

theorem filled_fillQueue : Filled 8191 (fresh.run fillQueue) := by
  have first : Filled 1 (fresh.run (List.replicate 5 (.receiver [1]) ++ List.replicate 5 .worker)) := by
    constructor <;> rfl
  have filled := first.rounds 8190 (by omega)
  rw [← run_append] at filled
  exact filled

theorem full_queue_overwrites_batch :
    ¬ Run.Guarded step WritesFreeSlot fresh
        (fillQueue ++ (List.replicate 7 (.receiver [1]) ++ [.receiver [2]])) ∧
      (fresh.run (fillQueue ++ (List.replicate 7 (.receiver [1]) ++
        [.receiver [2], .worker]))).gRunning = true ∧
      (fresh.run (fillQueue ++ (List.replicate 7 (.receiver [1]) ++
        [.receiver [2], .worker]))).handoff.parsed = [(⟨0, 1, [1]⟩, [2])] := by
  obtain ⟨inUse, outcome⟩ := filled_fillQueue.overwrites
  rw [run_append]
  exact ⟨fun free => inUse free.append, outcome⟩

end UdpFallback

end HftFixEngine.Networking
