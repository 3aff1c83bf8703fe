import HftFixEngine.Common.Handoff
import HftFixEngine.Engine.Pipeline
import HftFixEngine.Networking.FrameHeaders
import Mathlib.Data.List.Nodup

set_option autoImplicit false

namespace HftFixEngine.Networking

open Common Engine

namespace AfXdpRxConsumer

def numFrames : Nat := 4096

def frameSize : Nat := 2048

def batchSize : Nat := 64

end AfXdpRxConsumer

structure XdpDesc where
  addr : Nat
  len : Nat
  contents : Nat → UInt8

-- The payload is in the frame at `addr`; `received` is what the kernel has put there.
structure XdpPacket where
  addr : Nat
  payload : Payload
  received : List UInt8
  deriving DecidableEq, Repr

-- `batch` are the frames of one pass of the loop, `rest` those it has still to look at.
inductive XdpReceiver where
  | loopHead
  | peek
  | checkProducer
  | reserve (batch : List XdpDesc)
  | handle (batch rest : List XdpDesc) (reserved : Bool)
  | push (batch rest : List XdpDesc) (reserved : Bool)
  | left
  | returned

namespace XdpReceiver

def batch : XdpReceiver → List XdpDesc
  | .reserve batch => batch
  | .handle batch _ _ => batch
  | .push batch _ _ => batch
  | _ => []

def rest : XdpReceiver → List XdpDesc
  | .reserve batch => batch
  | .handle _ rest _ => rest
  | .push _ rest _ => rest
  | _ => []

def outside : XdpReceiver → Bool
  | .loopHead => true
  | .left => true
  | .returned => true
  | _ => false

def hasLeft : XdpReceiver → Bool
  | .left => true
  | .returned => true
  | _ => false

def checking : XdpReceiver → Bool
  | .checkProducer => true
  | _ => false

def unmapped : XdpReceiver → Bool
  | .returned => true
  | _ => false

def reserved : XdpReceiver → Bool
  | .handle _ _ reserved => reserved
  | .push _ _ reserved => reserved
  | _ => true

def pushing : XdpReceiver → Bool
  | .push _ _ _ => true
  | _ => false

end XdpReceiver

structure AfXdp where
  umem : Nat → Nat → UInt8
  fillRing : List Nat
  rxRing : List XdpDesc := []
  gRunning : Bool := true
  gProducerDone : Bool := false
  emptyChecks : Nat := 0
  receiver : XdpReceiver := .loopHead
  handoff : Handoff XdpPacket (List UInt8)

inductive XdpEvent where
  | kernel (frame : List UInt8)
  | receiver (seen : Nat) (granted : Bool)
  | worker
  | producerDone
  | stop
  deriving DecidableEq, Repr

namespace AfXdp

def payload (umem : Nat → Nat → UInt8) (packet : XdpPacket) : List UInt8 :=
  packet.payload.read (umem packet.addr)

def outstanding (state : AfXdp) : List XdpPacket := state.handoff.outstanding queueCapacity

-- Without a free frame the kernel drops what it has captured.
def stepKernel (frame : List UInt8) (state : AfXdp) : AfXdp :=
  match state.fillRing with
  | [] => state
  | addr :: fillRing =>
    let contents := Slots.overwrite (state.umem addr) frame
    { state with
      umem := Function.update state.umem addr contents
      fillRing
      rxRing := state.rxRing ++ [⟨addr, frame.length, contents⟩] }

def stepReceiver (filterPort : UInt16) (seen : Nat) (granted : Bool) (state : AfXdp) : AfXdp :=
  match state.receiver with
  | .loopHead => { state with receiver := if state.gRunning then .peek else .left }
  | .peek =>
    let rcvd := min seen AfXdpRxConsumer.batchSize
    match state.rxRing.take rcvd with
    | [] => { state with receiver := .checkProducer }
    | desc :: batch =>
      { state with
        rxRing := state.rxRing.drop rcvd
        emptyChecks := 0
        receiver := .reserve (desc :: batch) }
  | .checkProducer =>
    if state.gProducerDone then
      { state with
        emptyChecks := state.emptyChecks + 1
        receiver :=
          if state.emptyChecks + 1 ≥ ReceiverKind.afXdp.inactivityLimit then .left else .loopHead }
    else { state with receiver := .loopHead }
  | .reserve batch =>
    if state.gRunning then
      { state with receiver := if granted then .handle batch batch true else .reserve batch }
    else { state with receiver := .handle batch batch false }
  | .handle batch (desc :: rest) reserved =>
    match AfXdpRxConsumer.strip filterPort (state.umem desc.addr) desc.len with
    | none => { state with receiver := .handle batch rest reserved }
    | some payload =>
      { state with
        handoff := state.handoff.startSend ⟨desc.addr, payload, payload.read desc.contents⟩
        receiver := .push batch rest reserved }
  | .push batch rest reserved =>
    let handoff := state.handoff.send queueCapacity state.gRunning
    { state with
      handoff
      receiver :=
        match handoff.sending with
        | .ready => .handle batch rest reserved
        | _ => .push batch rest reserved }
  -- `xsk_ring_cons__release`, and `xsk_ring_prod__submit` if the places are reserved.
  | .handle batch [] reserved =>
    { state with
      fillRing := if reserved then state.fillRing ++ batch.map XdpDesc.addr else state.fillRing
      receiver := .loopHead }
  | .left => { state with receiver := .returned }
  | .returned => state

def step (filterPort : UInt16) (state : AfXdp) : XdpEvent → AfXdp
  | .kernel frame => state.stepKernel frame
  | .receiver seen granted => state.stepReceiver filterPort seen granted
  | .worker =>
    { state with handoff := state.handoff.work queueCapacity packetsPerBatch (payload state.umem) }
  | .producerDone => { state with gProducerDone := true }
  | .stop => { state with gRunning := false }

def run (filterPort : UInt16) (state : AfXdp) (events : List XdpEvent) : AfXdp :=
  events.foldl (step filterPort) state

def start (memory : Nat → Nat → UInt8) (cells : Nat → XdpPacket) : AfXdp where
  umem := memory
  fillRing := (List.range AfXdpRxConsumer.numFrames).map (· * AfXdpRxConsumer.frameSize)
  handoff := { queue := { buffer := cells } }

def Sound (state : AfXdp) : Prop :=
  (∀ packet ∈ state.outstanding, packet.addr ∉ state.fillRing) ∧
    ∀ reading ∈ state.handoff.parsed, reading.2 = reading.1.received

def Submits (state : AfXdp) : XdpEvent → Prop
  | .receiver _ _ => ∃ batch, state.receiver = .handle batch [] true
  | _ => False

def SubmitsDrained (state : AfXdp) (event : XdpEvent) : Prop :=
  state.Submits event → state.outstanding = []

structure Ok (state : AfXdp) : Prop where
  handoff : Handoff.Ok queueCapacity state.handoff
  ready : state.receiver.pushing = false → state.handoff.sending = .ready
  frames : (state.fillRing ++ state.rxRing.map XdpDesc.addr ++
    state.receiver.batch.map XdpDesc.addr).Nodup
  contents : ∀ desc ∈ state.rxRing ++ state.receiver.batch, state.umem desc.addr = desc.contents
  rest : state.receiver.rest ⊆ state.receiver.batch
  sending : ∀ packet ∈ state.handoff.sending.packet?,
    packet.addr ∈ state.receiver.batch.map XdpDesc.addr

namespace Ok

variable {state : AfXdp} {filterPort : UInt16}

theorem start (memory : Nat → Nat → UInt8) (cells : Nat → XdpPacket) : Ok (start memory cells) where
  handoff := Handoff.Ok.start cells
  ready := fun _ => rfl
  frames := by
    simp only [AfXdp.start, XdpReceiver.batch, List.map_nil, List.append_nil]
    refine List.Nodup.map ?_ List.nodup_range
    exact fun _ _ same => Nat.eq_of_mul_eq_mul_right (by decide) same
  contents := nofun
  rest := nofun
  sending := nofun

theorem idle (ok : Ok state) (here : state.receiver.pushing = false) :
    state.handoff.queue.producer = .idle :=
  ok.handoff.idle (ok.ready here)

theorem elsewhere (ok : Ok state) {addr : Nat} (free : addr ∈ state.fillRing) :
    ∀ desc ∈ state.rxRing ++ state.receiver.batch, desc.addr ≠ addr := by
  intro desc member same
  have frames := ok.frames
  rw [List.append_assoc, ← List.map_append] at frames
  exact (List.nodup_append.mp frames).2.2 _ free _ (List.mem_map_of_mem member) same.symm

theorem stepKernel (ok : Ok state) (frame : List UInt8) : Ok (state.stepKernel frame) := by
  unfold AfXdp.stepKernel
  split
  next => exact ok
  next addr fillRing free =>
    have elsewhere := ok.elsewhere (free ▸ List.mem_cons_self)
    refine { ok with frames := ?_, contents := ?_ }
    next =>
      have frames := ok.frames
      rw [free] at frames
      refine frames.perm ?_
      simp only [List.map_append, List.map_cons, List.map_nil, List.append_assoc, List.cons_append,
        List.nil_append]
      rw [← List.append_assoc, ← List.append_assoc]
      exact List.perm_middle.symm
    next =>
      intro desc member
      simp only [List.mem_append, List.mem_singleton, or_right_comm] at member
      obtain before | rfl := member
      next =>
        have other := elsewhere desc (List.mem_append.mpr before)
        exact (Function.update_of_ne other _ _).trans (ok.contents desc (List.mem_append.mpr before))
      next => exact Function.update_self _ _ _

theorem moves (ok : Ok state) (here : state.receiver.pushing = false) {fillRing : List Nat}
    {rxRing : List XdpDesc} {receiver : XdpReceiver} {emptyChecks : Nat}
    (frames : (fillRing ++ rxRing.map XdpDesc.addr ++ receiver.batch.map XdpDesc.addr).Nodup)
    (held : rxRing ++ receiver.batch ⊆ state.rxRing ++ state.receiver.batch)
    (rest : receiver.rest ⊆ receiver.batch) :
    Ok { state with fillRing, rxRing, receiver, emptyChecks } where
  handoff := ok.handoff
  ready := fun _ => ok.ready here
  frames := frames
  contents := fun desc member => ok.contents desc (held member)
  rest := rest
  sending := by
    rw [ok.ready here]
    nofun

theorem turns (ok : Ok state) (here : state.receiver.pushing = false) {receiver : XdpReceiver}
    {emptyChecks : Nat} (batch : receiver.batch = state.receiver.batch)
    (rest : receiver.rest ⊆ receiver.batch) :
    Ok { state with receiver, emptyChecks } := by
  refine ok.moves here ?_ ?_ rest
  next =>
    rw [batch]
    exact ok.frames
  next =>
    rw [batch]
    exact List.Subset.refl _

theorem peek (ok : Ok state) (here : state.receiver = .peek) (rcvd : Nat) {batch : List XdpDesc}
    (taken : state.rxRing.take rcvd = batch) :
    Ok { state with
      rxRing := state.rxRing.drop rcvd, emptyChecks := 0, receiver := .reserve batch } := by
  have whole := List.take_append_drop rcvd state.rxRing
  rw [taken] at whole
  have frames := ok.frames
  refine ok.moves (by rw [here]; rfl) ?_ ?_ (List.Subset.refl _)
  next =>
    rw [here, ← whole] at frames
    refine frames.perm ?_
    simp only [XdpReceiver.batch, List.map_append, List.map_nil, List.append_nil, List.append_assoc]
    exact List.perm_append_comm.append_left _
  next =>
    intro desc member
    rw [← whole, List.mem_append, List.mem_append]
    exact .inl (List.mem_append.mp member).symm

theorem submit (ok : Ok state) {batch : List XdpDesc} {reserved : Bool}
    (here : state.receiver = .handle batch [] reserved) :
    Ok { state with
      fillRing := if reserved then state.fillRing ++ batch.map XdpDesc.addr else state.fillRing
      receiver := .loopHead } := by
  have frames := ok.frames
  rw [here] at frames
  refine ok.moves (by rw [here]; rfl) ?_ ?_ nofun
  next =>
    simp only [XdpReceiver.batch, List.map_nil, List.append_nil]
    split
    next =>
      refine frames.perm ?_
      simp only [XdpReceiver.batch, List.append_assoc]
      exact List.perm_append_comm.append_left _
    next => exact frames.sublist (List.sublist_append_left _ _)
  next => simp [XdpReceiver.batch]

theorem startPush (ok : Ok state) {batch rest : List XdpDesc} {desc : XdpDesc} {reserved : Bool}
    (here : state.receiver = .handle batch (desc :: rest) reserved) (payload : Payload)
    (received : List UInt8) :
    Ok { state with
      handoff := state.handoff.startSend ⟨desc.addr, payload, received⟩
      receiver := .push batch rest reserved } := by
  have frames := ok.frames
  have contents := ok.contents
  have inBatch := ok.rest
  rw [here] at frames contents inBatch
  obtain ⟨member, later⟩ := List.cons_subset.mp inBatch
  constructor
  case handoff => exact ok.handoff.startSend (ok.idle (by rw [here]; rfl)) _
  case ready => exact nofun
  case frames => exact frames
  case contents => exact contents
  case rest => exact later
  case sending =>
    rintro packet ⟨⟩
    exact List.mem_map_of_mem member

theorem push (ok : Ok state) {batch rest : List XdpDesc} {reserved : Bool}
    (here : state.receiver = .push batch rest reserved) (seen : Nat) (granted : Bool) :
    Ok (state.stepReceiver filterPort seen granted) := by
  have frames := ok.frames
  have contents := ok.contents
  have inBatch := ok.rest
  have fromBatch := ok.sending
  rw [here] at frames contents inBatch fromBatch
  simp only [AfXdp.stepReceiver, here]
  obtain ⟨handoff, -, same⟩ := ok.handoff.send state.gRunning
  cases sending : (state.handoff.send queueCapacity state.gRunning).sending with
  | ready =>
    exact ⟨handoff, fun _ => sending, frames, contents, inBatch, by simp [sending, Sending.packet?]⟩
  | _ =>
    exact ⟨handoff, by simp [XdpReceiver.pushing], frames, contents, inBatch,
      fun packet member => fromBatch packet (same packet member)⟩

theorem stepReceiver (ok : Ok state) (seen : Nat) (granted : Bool) :
    Ok (state.stepReceiver filterPort seen granted) := by
  cases here : state.receiver with
  | loopHead =>
    simp only [AfXdp.stepReceiver, here]
    refine ok.turns (by rw [here]; rfl) ?_ ?_ <;> split <;>
      simp [here, XdpReceiver.batch, XdpReceiver.rest]
  | peek =>
    simp only [AfXdp.stepReceiver, here]
    split
    next => exact ok.turns (by rw [here]; rfl) (by rw [here]; rfl) nofun
    next taken => exact ok.peek here _ taken
  | checkProducer =>
    simp only [AfXdp.stepReceiver, here]
    split
    next =>
      refine ok.turns (by rw [here]; rfl) ?_ ?_ <;> split <;>
        simp [here, XdpReceiver.batch, XdpReceiver.rest]
    next => exact ok.turns (by rw [here]; rfl) (by rw [here]; rfl) nofun
  | reserve batch =>
    simp only [AfXdp.stepReceiver, here]
    split
    next =>
      refine ok.turns (by rw [here]; rfl) ?_ ?_ <;> split <;>
        simp [here, XdpReceiver.batch, XdpReceiver.rest]
    next => exact ok.turns (by rw [here]; rfl) (by rw [here]; rfl) (List.Subset.refl _)
  | handle batch rest reserved =>
    cases rest with
    | nil =>
      simp only [AfXdp.stepReceiver, here]
      exact ok.submit here
    | cons desc rest =>
      simp only [AfXdp.stepReceiver, here]
      split
      next =>
        have inBatch := ok.rest
        rw [here] at inBatch
        exact ok.turns (by rw [here]; rfl) (by rw [here]; rfl) (List.cons_subset.mp inBatch).2
      next => exact ok.startPush here _ _
  | push batch rest reserved => exact ok.push here seen granted
  | left =>
    simp only [AfXdp.stepReceiver, here]
    exact ok.turns (by rw [here]; rfl) (by rw [here]; rfl) nofun
  | returned =>
    simp only [AfXdp.stepReceiver, here]
    exact ok

theorem step (ok : Ok state) (event : XdpEvent) : Ok (state.step filterPort event) := by
  cases event with
  | kernel frame => exact ok.stepKernel frame
  | receiver seen granted => exact ok.stepReceiver seen granted
  | worker =>
    obtain ⟨handoff, sending, -, -⟩ := ok.handoff.work_cases packetsPerBatch (payload state.umem)
    exact
      { ok with
        handoff
        ready := fun here => sending.trans (ok.ready here)
        sending := sending ▸ ok.sending }
  | producerDone => exact { ok with }
  | stop => exact { ok with }

end Ok

structure Owned (state : AfXdp) : Prop where
  carried : state.handoff.Carries queueCapacity fun packet =>
    packet.addr ∉ state.fillRing ∧ payload state.umem packet = packet.received
  parsed : ∀ reading ∈ state.handoff.parsed, reading.2 = reading.1.received

namespace Owned

variable {state : AfXdp} {filterPort : UInt16}

theorem start (memory : Nat → Nat → UInt8) (cells : Nat → XdpPacket) :
    Owned (start memory cells) where
  carried := Handoff.Carries.start cells
  parsed := nofun

theorem stepKernel (owned : Owned state) (frame : List UInt8) : Owned (state.stepKernel frame) := by
  unfold AfXdp.stepKernel
  split
  next => exact owned
  next addr fillRing free =>
    refine { owned with carried := owned.carried.imp ?_ }
    rintro packet ⟨notFree, good⟩
    rw [free, List.mem_cons, not_or] at notFree
    refine ⟨notFree.2, ?_⟩
    exact (congrArg packet.payload.read (Function.update_of_ne notFree.1 _ _)).trans good

theorem startPush (owned : Owned state) (ok : Ok state) {batch rest : List XdpDesc} {desc : XdpDesc}
    {reserved : Bool} (here : state.receiver = .handle batch (desc :: rest) reserved)
    (found : Payload) :
    Owned { state with
      handoff := state.handoff.startSend ⟨desc.addr, found, found.read desc.contents⟩
      receiver := .push batch rest reserved } := by
  have member : desc ∈ state.rxRing ++ state.receiver.batch := by
    refine List.mem_append_right _ (ok.rest ?_)
    rw [here]
    exact List.mem_cons_self
  refine { owned with carried := owned.carried.startSend ok.handoff ?_ ⟨?_, ?_⟩ }
  next => exact ok.idle (by rw [here]; rfl)
  next => exact fun free => ok.elsewhere free desc member rfl
  next => exact congrArg found.read (ok.contents desc member)

theorem submit (owned : Owned state) (ok : Ok state) {batch : List XdpDesc}
    (here : state.receiver = .handle batch [] true) (drained : state.outstanding = [])
    (fillRing : List Nat) (receiver : XdpReceiver) : Owned { state with fillRing, receiver } := by
  refine { owned with carried := ⟨?_, ?_⟩ }
  next =>
    rw [show state.handoff.outstanding queueCapacity = [] from drained]
    nofun
  next =>
    rw [ok.ready (by rw [here]; rfl)]
    nofun

theorem stepReceiver (owned : Owned state) (ok : Ok state) {seen : Nat} {granted : Bool}
    (drained : state.SubmitsDrained (.receiver seen granted)) :
    Owned (state.stepReceiver filterPort seen granted) := by
  unfold AfXdp.stepReceiver
  split
  case h_5 batch desc rest reserved here =>
    split
    next => exact { owned with }
    next found _ => exact owned.startPush ok here found
  case h_6 =>
    obtain ⟨-, parsed, -⟩ := ok.handoff.send state.gRunning
    exact ⟨owned.carried.send ok.handoff state.gRunning, parsed ▸ owned.parsed⟩
  case h_7 batch reserved here =>
    cases reserved with
    | true => exact owned.submit ok here (drained ⟨batch, here⟩) _ _
    | false => exact { owned with }
  case h_2 =>
    dsimp only
    split <;> exact { owned with }
  case h_3 => split <;> exact { owned with }
  case h_4 => split <;> exact { owned with }
  all_goals exact { owned with }

theorem step (owned : Owned state) (ok : Ok state) {event : XdpEvent}
    (drained : state.SubmitsDrained event) : Owned (state.step filterPort event) := by
  cases event with
  | kernel frame => exact owned.stepKernel frame
  | receiver seen granted => exact owned.stepReceiver ok drained
  | worker =>
    obtain ⟨carried, readings⟩ :=
      owned.carried.work ok.handoff packetsPerBatch (payload state.umem)
    refine ⟨carried, ?_⟩
    intro reading member
    obtain before | ⟨good, seen⟩ := readings reading member
    next => exact owned.parsed reading before
    next => exact seen.trans good.2
  | producerDone => exact { owned with }
  | stop => exact { owned with }

theorem sound (owned : Owned state) : state.Sound :=
  ⟨fun packet member => (owned.carried.outstanding packet member).1, owned.parsed⟩

end Owned

structure Current (state : AfXdp) : Prop where
  unreserved : state.receiver.reserved = false → state.gRunning = false
  outstanding : (∀ packet ∈ state.outstanding,
      packet.addr ∈ state.receiver.batch.map XdpDesc.addr) ∨
    (state.gRunning = false ∧ state.receiver.outside = true)

namespace Current

variable {state : AfXdp} {filterPort : UInt16}

theorem start (memory : Nat → Nat → UInt8) (cells : Nat → XdpPacket) :
    Current (start memory cells) where
  unreserved := nofun
  outstanding := by
    rw [AfXdp.outstanding, (Ok.start memory cells).handoff.outstanding_eq]
    exact .inl nofun

theorem inBatch (current : Current state) (inside : state.receiver.outside = false) :
    ∀ packet ∈ state.outstanding, packet.addr ∈ state.receiver.batch.map XdpDesc.addr := by
  obtain batch | ⟨-, outside⟩ := current.outstanding
  next => exact batch
  next => simp [inside] at outside

theorem stepReceiver (current : Current state) (ok : Ok state) {seen : Nat} {granted : Bool}
    (drained : state.SubmitsDrained (.receiver seen granted)) :
    Current (state.stepReceiver filterPort seen granted) := by
  cases here : state.receiver with
  | loopHead =>
    simp only [AfXdp.stepReceiver, here]
    cases running : state.gRunning with
    | true =>
      have outstanding := current.outstanding
      rw [here, running] at outstanding
      exact ⟨nofun, .inl (outstanding.resolve_right nofun)⟩
    | false => exact ⟨nofun, .inr ⟨rfl, rfl⟩⟩
  | peek =>
    have none := current.inBatch (by rw [here]; rfl)
    rw [here] at none
    simp only [AfXdp.stepReceiver, here]
    split
    next => exact ⟨nofun, .inl none⟩
    next => exact ⟨nofun, .inl fun packet member => nomatch none packet member⟩
  | checkProducer =>
    have none := current.inBatch (by rw [here]; rfl)
    rw [here] at none
    simp only [AfXdp.stepReceiver, here]
    split
    next => split <;> exact ⟨nofun, .inl none⟩
    next => exact ⟨nofun, .inl none⟩
  | reserve batch =>
    have batch := current.inBatch (by rw [here]; rfl)
    rw [here] at batch
    simp only [AfXdp.stepReceiver, here]
    split
    next => split <;> exact ⟨nofun, .inl batch⟩
    next stopped => exact ⟨fun _ => by simpa using stopped, .inl batch⟩
  | handle batch rest reserved =>
    have inBatch := current.inBatch (by rw [here]; rfl)
    have unreserved := current.unreserved
    rw [here] at inBatch unreserved
    cases rest with
    | nil =>
      simp only [AfXdp.stepReceiver, here]
      cases reserved with
      | true =>
        have none : state.handoff.outstanding queueCapacity = [] := drained ⟨batch, here⟩
        refine ⟨nofun, .inl fun packet member => ?_⟩
        rw [AfXdp.outstanding, none] at member
        nomatch member
      | false => exact ⟨nofun, .inr ⟨unreserved rfl, rfl⟩⟩
    | cons desc rest =>
      simp only [AfXdp.stepReceiver, here]
      split
      next => exact ⟨unreserved, .inl inBatch⟩
      next =>
        refine ⟨unreserved, .inl ?_⟩
        rw [AfXdp.outstanding, (ok.handoff.startSend_outstanding (ok.idle (by rw [here]; rfl)) _).2]
        exact inBatch
  | push batch rest reserved =>
    have inBatch := current.inBatch (by rw [here]; rfl)
    have unreserved := current.unreserved
    have carries : state.handoff.Carries queueCapacity fun packet =>
        packet.addr ∈ state.receiver.batch.map XdpDesc.addr := ⟨inBatch, ok.sending⟩
    have sent := (carries.send ok.handoff state.gRunning).outstanding
    rw [here] at unreserved sent
    simp only [AfXdp.stepReceiver, here]
    split <;> exact ⟨unreserved, .inl sent⟩
  | left =>
    have outstanding := current.outstanding
    rw [here] at outstanding
    simp only [AfXdp.stepReceiver, here]
    exact ⟨nofun, outstanding⟩
  | returned =>
    simp only [AfXdp.stepReceiver, here]
    exact current

theorem step (current : Current state) (ok : Ok state) {event : XdpEvent}
    (drained : state.SubmitsDrained event) : Current (state.step filterPort event) := by
  cases event with
  | kernel frame =>
    simp only [AfXdp.step, stepKernel]
    split <;> exact { current with }
  | receiver seen granted => exact current.stepReceiver ok drained
  | worker =>
    obtain ⟨-, -, -, ⟨packet, rest, -, before, after, -⟩ | ⟨-, same, -⟩⟩ :=
      ok.handoff.work_cases packetsPerBatch (payload state.umem)
    next =>
      refine { current with outstanding := current.outstanding.imp_left fun batch other member => ?_ }
      refine batch other ?_
      rw [AfXdp.outstanding, before]
      exact List.mem_cons_of_mem packet (after ▸ member)
    next =>
      have outstanding := current.outstanding
      rw [AfXdp.outstanding, ← same] at outstanding
      exact { current with outstanding }
  | producerDone => exact { current with }
  | stop => exact ⟨fun _ => rfl, current.outstanding.imp_right fun outside => ⟨rfl, outside.2⟩⟩

theorem drained_of_sound (current : Current state) {event : XdpEvent}
    (sound : (state.step filterPort event).Sound) : state.SubmitsDrained event := by
  intro submits
  cases event with
  | receiver seen granted =>
    obtain ⟨batch, here⟩ := submits
    have inBatch := current.inBatch (by rw [here]; rfl)
    rw [here] at inBatch
    have notFree := sound.1
    simp only [AfXdp.step, AfXdp.stepReceiver, here, if_true] at notFree
    refine List.eq_nil_iff_forall_not_mem.mpr fun packet member => ?_
    exact notFree packet member (List.mem_append_right _ (inBatch packet member))
  | _ => nomatch submits

end Current

theorem run_sound_iff (filterPort : UInt16) {state : AfXdp} (ok : Ok state) (owned : Owned state)
    (current : Current state) (events : List XdpEvent) :
    (∀ done, done <+: events → (state.run filterPort done).Sound) ↔
      Run.Guarded (step filterPort) SubmitsDrained state events := by
  induction events generalizing state with
  | nil =>
    refine ⟨fun _ => trivial, fun _ done nothing => ?_⟩
    rw [List.prefix_nil.mp nothing]
    exact owned.sound
  | cons event events ih =>
    constructor
    next =>
      intro sound
      have first := sound [event] (List.prefix_append [event] events)
      have drained := current.drained_of_sound first
      refine ⟨drained, (ih (ok.step event) (owned.step ok drained) (current.step ok drained)).mp ?_⟩
      exact fun done before => sound (event :: done) (List.cons_prefix_cons.mpr ⟨rfl, before⟩)
    next =>
      rintro ⟨drained, later⟩ done before
      have next := (ih (ok.step event) (owned.step ok drained) (current.step ok drained)).mpr later
      cases done with
      | nil => exact owned.sound
      | cons first done =>
        obtain ⟨rfl, shorter⟩ := List.cons_prefix_cons.mp before
        exact next done shorter

theorem frames_stay_owned_iff (filterPort : UInt16) (memory : Nat → Nat → UInt8)
    (cells : Nat → XdpPacket) (events : List XdpEvent) :
    (∀ done, done <+: events → ((start memory cells).run filterPort done).Sound) ↔
      Run.Guarded (step filterPort) SubmitsDrained (start memory cells) events :=
  run_sound_iff filterPort (Ok.start memory cells) (Owned.start memory cells)
    (Current.start memory cells) events

theorem submitted_frame_still_queued :
    let events : List XdpEvent :=
      .kernel (udpFrame 0 9 [65]) :: List.replicate 8 (.receiver 1 true)
    let state := (start (fun _ _ => 0) fun _ => ⟨0, ⟨0, 0⟩, []⟩).run 5001 events
    state.outstanding = [⟨0, ⟨42, 1⟩, [65]⟩] ∧ 0 ∈ state.fillRing ∧ ¬ state.Sound := by
  intro events state
  have queued : state.outstanding = [⟨0, ⟨42, 1⟩, [65]⟩] := by decide +kernel
  have free : 0 ∈ state.fillRing := by decide +kernel
  refine ⟨queued, free, ?_⟩
  intro sound
  exact sound.1 ⟨0, ⟨42, 1⟩, [65]⟩ (by rw [queued]; exact List.mem_singleton_self _) free

end AfXdp

end HftFixEngine.Networking
