import HftFixEngine.Networking.AfXdpRxConsumer
import HftFixEngine.Networking.PacketMmapRxConsumer

set_option autoImplicit false

namespace HftFixEngine.Networking

open Common Engine

-- A worker that has nothing to parse gets nothing from an idle receiver.
theorem work_outstanding_nil {T V : Type} {capacity : Capacity} {handoff : Handoff T V}
    (ok : Handoff.Ok capacity handoff) (maxItems : Nat) (observe : T → V)
    (none : handoff.outstanding capacity = []) :
    (handoff.work capacity maxItems observe).outstanding capacity = [] := by
  obtain ⟨-, -, -, ⟨packet, rest, -, before, -, -⟩ | ⟨-, same, -⟩⟩ := ok.work_cases maxItems observe
  next =>
    rw [none] at before
    nomatch before
  next => exact same.trans none

namespace AfXdp

variable {state : AfXdp} {filterPort : UInt16}

def PayloadsMapped (state : AfXdp) : Prop := state.receiver.unmapped = true → state.outstanding = []

def TimesOut (state : AfXdp) : XdpEvent → Prop
  | .receiver _ _ =>
    state.receiver.checking = true ∧ state.gProducerDone = true ∧
      state.emptyChecks + 1 ≥ ReceiverKind.afXdp.inactivityLimit
  | _ => False

-- Nobody stops the run, and at the last of the empty looks no packet is left to be parsed.
def TimesOutDrained (state : AfXdp) (event : XdpEvent) : Prop :=
  event ≠ .stop ∧ (state.TimesOut event → state.outstanding = [])

theorem stepReceiver_leaves (seen : Nat) (granted : Bool)
    (leaves : (state.stepReceiver filterPort seen granted).receiver.hasLeft = true) :
    (state.stepReceiver filterPort seen granted).handoff = state.handoff ∧
      (state.receiver.hasLeft = true ∨ state.gRunning = false ∨
        state.TimesOut (.receiver seen granted)) := by
  revert leaves
  unfold stepReceiver
  split
  case h_1 =>
    split
    next => nofun
    next stopped => exact fun _ => ⟨rfl, .inr (.inl (by simpa using stopped))⟩
  case h_2 =>
    dsimp only
    split <;> nofun
  case h_3 here =>
    split
    next done =>
      split
      next limit => exact fun _ => ⟨rfl, .inr (.inr ⟨by rw [here]; rfl, done, limit⟩)⟩
      next => nofun
    next => nofun
  case h_4 =>
    split
    next => split <;> nofun
    next => nofun
  case h_5 => split <;> nofun
  case h_6 =>
    dsimp only
    split <;> nofun
  case h_7 => nofun
  case h_8 here => exact fun _ => ⟨rfl, .inl (by rw [here]; rfl)⟩
  case h_9 here => exact fun _ => ⟨rfl, .inl (by rw [here]; rfl)⟩

theorem stepReceiver_gRunning (seen : Nat) (granted : Bool) :
    (state.stepReceiver filterPort seen granted).gRunning = state.gRunning := by
  unfold stepReceiver
  split
  case h_2 =>
    dsimp only
    split <;> rfl
  case h_3 => split <;> rfl
  case h_4 => split <;> rfl
  case h_5 => split <;> rfl
  all_goals rfl

instance (state : AfXdp) (event : XdpEvent) : Decidable (state.TimesOutDrained event) :=
  match event with
  | .receiver _ _ => inferInstanceAs (Decidable (_ ∧ (_ ∧ _ ∧ _ → _)))
  | .kernel _ | .worker | .producerDone | .stop => inferInstanceAs (Decidable (_ ∧ (False → _)))

structure LeavesDrained (state : AfXdp) : Prop where
  ok : Ok state
  running : state.gRunning = true
  left : state.receiver.hasLeft = true → state.outstanding = []

namespace LeavesDrained

theorem start (memory : Nat → Nat → UInt8) (cells : Nat → XdpPacket) :
    LeavesDrained (start memory cells) where
  ok := Ok.start memory cells
  running := rfl
  left := nofun

theorem step (drained : LeavesDrained state) {event : XdpEvent}
    (inTime : state.TimesOutDrained event) : LeavesDrained (state.step filterPort event) := by
  obtain ⟨goesOn, timesOut⟩ := inTime
  have ok : Ok (state.step filterPort event) := drained.ok.step event
  cases event with
  | kernel frame =>
    revert ok
    simp only [AfXdp.step, stepKernel]
    split <;> exact fun ok => { drained with ok }
  | receiver seen granted =>
    refine ⟨ok, (stepReceiver_gRunning seen granted).trans drained.running, fun leaves => ?_⟩
    obtain ⟨same, before⟩ := stepReceiver_leaves seen granted leaves
    rw [outstanding, AfXdp.step, same]
    obtain before | stopped | limit := before
    next => exact drained.left before
    next => simp [drained.running] at stopped
    next => exact timesOut limit
  | worker =>
    exact ⟨ok, drained.running, fun left =>
      work_outstanding_nil drained.ok.handoff _ _ (drained.left left)⟩
  | producerDone => exact { drained with ok }
  | stop => exact absurd rfl goesOn

theorem payloadsMapped (drained : LeavesDrained state) : state.PayloadsMapped := by
  intro unmapped
  refine drained.left ?_
  cases here : state.receiver with
  | returned => rfl
  | _ => simp [here, XdpReceiver.unmapped] at unmapped

end LeavesDrained

end AfXdp

namespace PacketMmap

variable {state : PacketMmap} {filterPort : UInt16}

def PayloadsMapped (state : PacketMmap) : Prop :=
  state.receiver.unmapped = true → state.outstanding = []

def TimesOut (state : PacketMmap) : RingEvent → Prop
  | .receiver =>
    state.receiver = .checkProducer ∧ state.gProducerDone = true ∧
      state.emptyChecks + 1 ≥ ReceiverKind.packetMmap.inactivityLimit
  | _ => False

def TimesOutDrained (state : PacketMmap) (event : RingEvent) : Prop :=
  event ≠ .stop ∧ (state.TimesOut event → state.outstanding = [])

theorem stepReceiver_leaves (leaves : (state.stepReceiver filterPort).receiver.hasLeft = true) :
    (state.stepReceiver filterPort).handoff = state.handoff ∧
      (state.receiver.hasLeft = true ∨ state.gRunning = false ∨ state.TimesOut .receiver) := by
  revert leaves
  unfold stepReceiver
  split
  case h_1 =>
    split
    next => nofun
    next stopped => exact fun _ => ⟨rfl, .inr (.inl (by simpa using stopped))⟩
  case h_2 =>
    dsimp only
    split
    next => split <;> nofun
    next => nofun
  case h_3 here =>
    split
    next done =>
      split
      next limit => exact fun _ => ⟨rfl, .inr (.inr ⟨here, done, limit⟩)⟩
      next => nofun
    next => nofun
  case h_4 here =>
    dsimp only
    split
    next => nofun
    next => simp [here, RingReceiver.hasLeft]
  case h_5 here => exact fun _ => ⟨rfl, .inl (by rw [here]; rfl)⟩
  case h_6 here => exact fun _ => ⟨rfl, .inl (by rw [here]; rfl)⟩

theorem stepReceiver_gRunning : (state.stepReceiver filterPort).gRunning = state.gRunning := by
  unfold stepReceiver
  split
  case h_2 =>
    dsimp only
    split
    next => split <;> rfl
    next => rfl
  case h_3 => split <;> rfl
  case h_4 =>
    dsimp only
    split <;> rfl
  all_goals rfl

instance (state : PacketMmap) (event : RingEvent) : Decidable (state.TimesOutDrained event) :=
  match event with
  | .receiver => inferInstanceAs (Decidable (_ ∧ (_ ∧ _ ∧ _ → _)))
  | .kernel _ | .worker | .producerDone | .stop => inferInstanceAs (Decidable (_ ∧ (False → _)))

structure LeavesDrained (state : PacketMmap) : Prop where
  handoff : Handoff.Ok queueCapacity state.handoff
  ready : state.receiver ≠ .push → state.handoff.sending = .ready
  running : state.gRunning = true
  left : state.receiver.hasLeft = true → state.outstanding = []

namespace LeavesDrained

theorem start (memory : Nat → Nat → UInt8) (cells : Nat → RingPacket) :
    LeavesDrained (start memory cells) where
  handoff := Handoff.Ok.start cells
  ready := fun _ => rfl
  running := rfl
  left := nofun

theorem stepReceiver_handoff (drained : LeavesDrained state) (filterPort : UInt16) :
    Handoff.Ok queueCapacity (state.stepReceiver filterPort).handoff ∧
      ((state.stepReceiver filterPort).receiver ≠ .push →
        (state.stepReceiver filterPort).handoff.sending = .ready) := by
  have handoff := drained.handoff
  cases here : state.receiver with
  | push =>
    simp only [stepReceiver, here]
    obtain ⟨sent, -, -⟩ := handoff.send state.gRunning
    split
    next ready => exact ⟨sent, fun _ => ready⟩
    next => exact ⟨sent, fun notPushing => absurd rfl notPushing⟩
  | look =>
    have ready := drained.ready (by simp [here])
    have idle := handoff.idle ready
    simp only [stepReceiver, here]
    split
    next =>
      split
      next => exact ⟨handoff, fun _ => ready⟩
      next => exact ⟨handoff.startSend idle _, fun notPushing => absurd rfl notPushing⟩
    next => exact ⟨handoff, fun _ => ready⟩
  | checkProducer =>
    have ready := drained.ready (by simp [here])
    simp only [stepReceiver, here]
    split <;> exact ⟨handoff, fun _ => ready⟩
  | loopHead | left | returned =>
    have ready := drained.ready (by simp [here])
    simp only [stepReceiver, here]
    exact ⟨handoff, fun _ => ready⟩

theorem step (drained : LeavesDrained state) {event : RingEvent}
    (inTime : state.TimesOutDrained event) : LeavesDrained (state.step filterPort event) := by
  obtain ⟨goesOn, timesOut⟩ := inTime
  cases event with
  | kernel frame =>
    simp only [PacketMmap.step, stepKernel]
    split <;> exact { drained with }
  | receiver =>
    obtain ⟨handoff, ready⟩ := drained.stepReceiver_handoff filterPort
    refine ⟨handoff, ready, stepReceiver_gRunning.trans drained.running, fun leaves => ?_⟩
    obtain ⟨same, before⟩ := stepReceiver_leaves leaves
    rw [outstanding, PacketMmap.step, same]
    obtain before | stopped | limit := before
    next => exact drained.left before
    next => simp [drained.running] at stopped
    next => exact timesOut limit
  | worker =>
    simp only [PacketMmap.step, stepWorker]
    split
    next => exact { drained with }
    next =>
      obtain ⟨handoff, sending, -, -⟩ := drained.handoff.work_cases packetsPerBatch fun _ => ()
      exact ⟨handoff, fun here => sending.trans (drained.ready here), drained.running, fun left =>
        work_outstanding_nil drained.handoff _ _ (drained.left left)⟩
  | producerDone => exact { drained with }
  | stop => exact absurd rfl goesOn

theorem payloadsMapped (drained : LeavesDrained state) : state.PayloadsMapped := by
  intro unmapped
  refine drained.left ?_
  cases here : state.receiver with
  | returned => rfl
  | _ => simp [here, RingReceiver.unmapped] at unmapped

end LeavesDrained

end PacketMmap

theorem payloads_mapped_when_drained (filterPort : UInt16) (memory : Nat → Nat → UInt8) :
    (∀ (cells : Nat → XdpPacket) (events : List XdpEvent),
      Run.Guarded (AfXdp.step filterPort) AfXdp.TimesOutDrained (AfXdp.start memory cells) events →
      ∀ done, done <+: events →
        ((AfXdp.start memory cells).run filterPort done).PayloadsMapped) ∧
    (∀ (cells : Nat → RingPacket) (events : List RingEvent),
      Run.Guarded (PacketMmap.step filterPort) PacketMmap.TimesOutDrained
        (PacketMmap.start memory cells) events →
      ∀ done, done <+: events →
        ((PacketMmap.start memory cells).run filterPort done).PayloadsMapped) := by
  constructor
  next =>
    rintro cells events inTime done ⟨later, rfl⟩
    have drained : AfXdp.LeavesDrained ((AfXdp.start memory cells).run filterPort done) :=
      Run.Guarded.invariant (fun _ _ drained inTime => drained.step inTime)
        (AfXdp.LeavesDrained.start memory cells) inTime
    exact drained.payloadsMapped
  next =>
    rintro cells events inTime done ⟨later, rfl⟩
    have drained : PacketMmap.LeavesDrained ((PacketMmap.start memory cells).run filterPort done) :=
      Run.Guarded.invariant (fun _ _ drained inTime => drained.step inTime)
        (PacketMmap.LeavesDrained.start memory cells) inTime
    exact drained.payloadsMapped

def onePacketXdp (parsed : Bool) : List XdpEvent :=
  .kernel (udpFrame 0 9 [65]) :: List.replicate 8 (.receiver 1 true) ++
    List.replicate (if parsed then 6 else 0) .worker ++ .producerDone ::
    List.replicate 601 (.receiver 1 true)

def onePacketMmap (parsed : Bool) : List RingEvent :=
  .kernel (udpFrame 0 9 [65]) :: List.replicate 5 .receiver ++
    List.replicate (if parsed then 7 else 0) .worker ++ .producerDone :: List.replicate 301 .receiver

theorem payloads_mapped_one_packet :
    let xdp := (AfXdp.start (fun _ _ => 0) fun _ => ⟨0, ⟨0, 0⟩, []⟩).run 5001 (onePacketXdp true)
    let mmap := (PacketMmap.start (fun _ _ => 0) fun _ => ⟨0, ⟨0, 0⟩, 0⟩).run 5001 (onePacketMmap true)
    (xdp.receiver.unmapped = true ∧ xdp.handoff.parsed.length = 1 ∧ xdp.PayloadsMapped) ∧
      mmap.receiver.unmapped = true ∧ mmap.handoff.parsed.length = 1 ∧ mmap.PayloadsMapped := by
  intro xdp mmap
  obtain ⟨afXdp, packetMmap⟩ := payloads_mapped_when_drained 5001 fun _ _ => 0
  refine ⟨⟨by decide +kernel, by decide +kernel, ?_⟩, by decide +kernel, by decide +kernel, ?_⟩
  next => exact afXdp _ (onePacketXdp true) (by decide +kernel) (onePacketXdp true) List.prefix_rfl
  next =>
    exact packetMmap _ (onePacketMmap true) (by decide +kernel) (onePacketMmap true) List.prefix_rfl

theorem queued_payload_unmapped :
    let xdp := (AfXdp.start (fun _ _ => 0) fun _ => ⟨0, ⟨0, 0⟩, []⟩).run 5001 (onePacketXdp false)
    let mmap := (PacketMmap.start (fun _ _ => 0) fun _ => ⟨0, ⟨0, 0⟩, 0⟩).run 5001 (onePacketMmap false)
    (xdp.gRunning = true ∧ xdp.outstanding.length = 1 ∧ ¬ xdp.PayloadsMapped) ∧
      mmap.gRunning = true ∧ mmap.outstanding.length = 1 ∧ ¬ mmap.PayloadsMapped := by
  intro xdp mmap
  have xdpLeft : xdp.outstanding.length = 1 := by decide +kernel
  have mmapLeft : mmap.outstanding.length = 1 := by decide +kernel
  refine ⟨⟨by decide +kernel, xdpLeft, fun keeps => ?_⟩, by decide +kernel, mmapLeft, fun keeps => ?_⟩
  next =>
    rw [keeps (by decide +kernel)] at xdpLeft
    nomatch xdpLeft
  next =>
    rw [keeps (by decide +kernel)] at mmapLeft
    nomatch mmapLeft

end HftFixEngine.Networking
