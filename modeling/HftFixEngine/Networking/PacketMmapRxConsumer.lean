import HftFixEngine.Common.Handoff
import HftFixEngine.Engine.Pipeline
import HftFixEngine.Networking.FrameHeaders
import Mathlib.Data.List.Nodup

set_option autoImplicit false

namespace HftFixEngine.Networking

open Common Engine

namespace PacketMmapRxConsumer

def frameNr : Nat := 4 * 1024 * 1024 * 32 / 2048

end PacketMmapRxConsumer

structure RingFrame where
  user : Bool := false
  memory : Nat → UInt8
  captured : Nat := 0
  fill : Nat := 0

-- `frame` is the index of `ring_hdr`; `fill` is the fill of the frame that the packet is of.
structure RingPacket where
  frame : Nat
  payload : Payload
  fill : Nat
  deriving DecidableEq, Repr

inductive RingReceiver where
  | loopHead
  | look
  | checkProducer
  | push
  | left
  | returned
  deriving DecidableEq, Repr

namespace RingReceiver

def hasLeft : RingReceiver → Bool
  | .left => true
  | .returned => true
  | _ => false

def unmapped : RingReceiver → Bool
  | .returned => true
  | _ => false

end RingReceiver

structure PacketMmap where
  ring : Nat → RingFrame
  kernelIdx : Nat := 0
  fills : Nat := 0
  frameIdx : Nat := 0
  gRunning : Bool := true
  gProducerDone : Bool := false
  emptyChecks : Nat := 0
  receiver : RingReceiver := .loopHead
  releasing : Option Nat := none
  handoff : Handoff RingPacket Unit

inductive RingEvent where
  | kernel (frame : List UInt8)
  | receiver
  | worker
  | producerDone
  | stop
  deriving DecidableEq, Repr

namespace PacketMmap

def outstanding (state : PacketMmap) : List RingPacket := state.handoff.outstanding queueCapacity

def release (frame : Nat) (ring : Nat → RingFrame) : Nat → RingFrame :=
  Function.update ring frame { ring frame with user := false }

-- The kernel drops what it has captured while the next frame is not its own.
def stepKernel (frame : List UInt8) (state : PacketMmap) : PacketMmap :=
  let next := state.ring state.kernelIdx
  if next.user then state
  else
    { state with
      ring := Function.update state.ring state.kernelIdx
        ⟨true, Slots.overwrite next.memory frame, frame.length, state.fills⟩
      kernelIdx := (state.kernelIdx + 1) % PacketMmapRxConsumer.frameNr
      fills := state.fills + 1 }

def nextFrame (frameIdx : Nat) : Nat := (frameIdx + 1) &&& (PacketMmapRxConsumer.frameNr - 1)

theorem nextFrame_eq (frameIdx : Nat) : nextFrame frameIdx = (frameIdx + 1) % 65536 :=
  Ring.mask_eq_mod (by decide) (by decide) _

-- The frame of a packet that was given up stays with the program too.
def stepReceiver (filterPort : UInt16) (state : PacketMmap) : PacketMmap :=
  match state.receiver with
  | .loopHead => { state with receiver := if state.gRunning then .look else .left }
  | .look =>
    let hdr := state.ring state.frameIdx
    if hdr.user then
      match PacketMmapRxConsumer.strip filterPort hdr.memory hdr.captured with
      | none =>
        { state with
          ring := release state.frameIdx state.ring
          frameIdx := nextFrame state.frameIdx
          emptyChecks := 0
          receiver := .loopHead }
      | some payload =>
        { state with
          handoff := state.handoff.startSend ⟨state.frameIdx, payload, hdr.fill⟩
          emptyChecks := 0
          receiver := .push }
    else { state with receiver := .checkProducer }
  | .checkProducer =>
    if state.gProducerDone then
      { state with
        emptyChecks := state.emptyChecks + 1
        receiver :=
          if state.emptyChecks + 1 ≥ ReceiverKind.packetMmap.inactivityLimit then .left
          else .loopHead }
    else { state with receiver := .loopHead }
  | .push =>
    let handoff := state.handoff.send queueCapacity state.gRunning
    match handoff.sending with
    | .ready =>
      { state with
        handoff
        frameIdx := nextFrame state.frameIdx
        receiver := .loopHead }
    | _ => { state with handoff }
  | .left => { state with receiver := .returned }
  | .returned => state

-- Every way through the worker's loop ends with giving the frame back.
def stepWorker (state : PacketMmap) : PacketMmap :=
  match state.releasing with
  | some frame => { state with ring := release frame state.ring, releasing := none }
  | none =>
    { state with
      handoff := state.handoff.work queueCapacity packetsPerBatch fun _ => ()
      releasing := state.handoff.batch.head?.map RingPacket.frame }

def step (filterPort : UInt16) (state : PacketMmap) : RingEvent → PacketMmap
  | .kernel frame => state.stepKernel frame
  | .receiver => state.stepReceiver filterPort
  | .worker => state.stepWorker
  | .producerDone => { state with gProducerDone := true }
  | .stop => { state with gRunning := false }

def run (filterPort : UInt16) (state : PacketMmap) (events : List RingEvent) : PacketMmap :=
  events.foldl (step filterPort) state

theorem run_append (filterPort : UInt16) (state : PacketMmap) (events later : List RingEvent) :
    state.run filterPort (events ++ later) = (state.run filterPort events).run filterPort later :=
  List.foldl_append

def start (memory : Nat → Nat → UInt8) (cells : Nat → RingPacket) : PacketMmap where
  ring := fun frame => { memory := memory frame }
  handoff := { queue := { buffer := cells } }

def Sound (state : PacketMmap) : Prop :=
  (state.handoff.queue.accepted.map RingPacket.fill).Nodup ∧
    ∀ packet ∈ state.outstanding, (state.ring packet.frame).user = true

def held (state : PacketMmap) : List Nat :=
  state.outstanding.map RingPacket.frame ++ state.releasing.toList

def LooksAtReleased (state : PacketMmap) : RingEvent → Prop
  | .receiver => state.receiver = .look → state.frameIdx ∉ state.held
  | _ => True

def Sends (state : PacketMmap) (packet : RingPacket) : Prop :=
  packet.frame = state.frameIdx ∧ packet.fill = (state.ring state.frameIdx).fill ∧
    (state.ring state.frameIdx).user = true ∧ state.frameIdx ∉ state.held

theorem Sends.kept {state now : PacketMmap} {packet : RingPacket} (sends : state.Sends packet)
    (frameIdx : now.frameIdx = state.frameIdx)
    (same : now.ring state.frameIdx = state.ring state.frameIdx) (free : state.frameIdx ∉ now.held) :
    now.Sends packet := by
  rw [Sends, frameIdx, same]
  exact ⟨sends.1, sends.2.1, sends.2.2.1, free⟩

structure Ledger (ring : Nat → RingFrame) (held delivered : List Nat) (fills : Nat) : Prop where
  heldOnce : held.Nodup
  heldUser : ∀ frame ∈ held, (ring frame).user = true
  once : delivered.Nodup
  known : ∀ fill ∈ delivered, fill < fills
  fresh : ∀ frame, (ring frame).user = true → frame ∉ held → (ring frame).fill ∉ delivered
  recent : ∀ frame, (ring frame).user = true → (ring frame).fill < fills
  distinct : ∀ frame other, (ring frame).user = true → (ring other).user = true →
    (ring frame).fill = (ring other).fill → frame = other

namespace Ledger

variable {ring : Nat → RingFrame} {held delivered : List Nat} {fills : Nat}

theorem perm (ledger : Ledger ring held delivered fills) {other : List Nat} (same : held.Perm other) :
    Ledger ring other delivered fills :=
  { ledger with
    heldOnce := same.nodup_iff.mp ledger.heldOnce
    heldUser := fun frame member => ledger.heldUser frame (same.mem_iff.mpr member)
    fresh := fun frame user free =>
      ledger.fresh frame user fun member => free (same.mem_iff.mp member) }

theorem fill (ledger : Ledger ring held delivered fills) {frame : Nat}
    (free : (ring frame).user = false) (memory : Nat → UInt8) (captured : Nat) :
    Ledger (Function.update ring frame ⟨true, memory, captured, fills⟩) held delivered
      (fills + 1) := by
  have notHeld : frame ∉ held := by
    intro member
    simp [ledger.heldUser frame member] at free
  constructor
  case heldOnce => exact ledger.heldOnce
  case heldUser =>
    intro other member
    have apart : other ≠ frame := fun same => notHeld (same ▸ member)
    rw [Function.update_of_ne apart]
    exact ledger.heldUser other member
  case once => exact ledger.once
  case known => exact fun old member => Nat.lt_succ_of_lt (ledger.known old member)
  case fresh =>
    intro other user free
    by_cases same : other = frame
    next =>
      rw [same, Function.update_self]
      exact fun old => Nat.lt_irrefl _ (ledger.known fills old)
    next =>
      rw [Function.update_of_ne same] at user ⊢
      exact ledger.fresh other user free
  case recent =>
    intro other user
    by_cases same : other = frame
    next =>
      rw [same, Function.update_self]
      exact Nat.lt_succ_self fills
    next =>
      rw [Function.update_of_ne same] at user ⊢
      exact Nat.lt_succ_of_lt (ledger.recent other user)
  case distinct =>
    have newest {other : Nat} (apart : other ≠ frame)
        (user : (Function.update ring frame ⟨true, memory, captured, fills⟩ other).user = true) :
        (Function.update ring frame ⟨true, memory, captured, fills⟩ other).fill < fills := by
      rw [Function.update_of_ne apart] at user ⊢
      exact ledger.recent other user
    intro one other oneUser otherUser equal
    by_cases first : one = frame <;> by_cases second : other = frame
    next => rw [first, second]
    next =>
      have below := newest second otherUser
      rw [← equal, first, Function.update_self] at below
      exact absurd below (Nat.lt_irrefl fills)
    next =>
      have below := newest first oneUser
      rw [equal, second, Function.update_self] at below
      exact absurd below (Nat.lt_irrefl fills)
    next =>
      rw [Function.update_of_ne first] at oneUser equal
      rw [Function.update_of_ne second] at otherUser equal
      exact ledger.distinct one other oneUser otherUser equal

theorem release_user {frame other : Nat} (user : (release frame ring other).user = true) :
    other ≠ frame ∧ release frame ring other = ring other := by
  by_cases same : other = frame
  next => simp [release, same] at user
  next => exact ⟨same, Function.update_of_ne same _ _⟩

theorem release (ledger : Ledger ring held delivered fills) {frame : Nat} {kept : List Nat}
    (sublist : kept.Sublist held) (gone : frame ∉ kept)
    (only : ∀ other ∈ held, other ∉ kept → other = frame) :
    Ledger (release frame ring) kept delivered fills where
  heldOnce := ledger.heldOnce.sublist sublist
  heldUser := by
    intro other member
    have apart : other ≠ frame := fun same => gone (same ▸ member)
    rw [PacketMmap.release, Function.update_of_ne apart]
    exact ledger.heldUser other (sublist.subset member)
  once := ledger.once
  known := ledger.known
  fresh := by
    intro other user free
    obtain ⟨apart, same⟩ := release_user user
    rw [same] at user ⊢
    exact ledger.fresh other user fun member => apart (only other member free)
  recent := by
    intro other user
    obtain ⟨-, same⟩ := release_user user
    rw [same] at user ⊢
    exact ledger.recent other user
  distinct := by
    intro one other oneUser otherUser equal
    obtain ⟨-, oneSame⟩ := release_user oneUser
    obtain ⟨-, otherSame⟩ := release_user otherUser
    rw [oneSame, otherSame] at equal
    exact ledger.distinct one other (oneSame ▸ oneUser) (otherSame ▸ otherUser) equal

theorem deliver (ledger : Ledger ring held delivered fills) {frame : Nat}
    (user : (ring frame).user = true) (free : frame ∉ held) :
    Ledger ring (frame :: held) (delivered ++ [(ring frame).fill]) fills where
  heldOnce := List.nodup_cons.mpr ⟨free, ledger.heldOnce⟩
  heldUser := List.forall_mem_cons.mpr ⟨user, ledger.heldUser⟩
  once := by
    rw [← List.concat_eq_append]
    exact ledger.once.concat (ledger.fresh frame user free)
  known := by
    rw [List.forall_mem_append, List.forall_mem_singleton]
    exact ⟨ledger.known, ledger.recent frame user⟩
  fresh := by
    intro other otherUser otherFree
    rw [List.mem_cons, not_or] at otherFree
    rw [List.mem_append, List.mem_singleton, not_or]
    refine ⟨ledger.fresh other otherUser otherFree.2, ?_⟩
    exact fun equal => otherFree.1 (ledger.distinct other frame otherUser user equal)
  recent := ledger.recent
  distinct := ledger.distinct

end Ledger

structure Ok (state : PacketMmap) : Prop where
  handoff : Handoff.Ok queueCapacity state.handoff
  ready : state.receiver ≠ .push → state.handoff.sending = .ready
  pushing : state.receiver = .push →
    ∃ packet, state.handoff.sending.packet? = some packet ∧ state.Sends packet
  ledger : Ledger state.ring state.held (state.handoff.queue.accepted.map RingPacket.fill) state.fills

namespace Ok

variable {state : PacketMmap} {filterPort : UInt16}

theorem start (memory : Nat → Nat → UInt8) (cells : Nat → RingPacket) :
    Ok (start memory cells) where
  handoff := Handoff.Ok.start cells
  ready := fun _ => rfl
  pushing := nofun
  ledger := by
    have none : (PacketMmap.start memory cells).held = [] := by
      rw [held, outstanding, PacketMmap.start, (Handoff.Ok.start cells).outstanding_eq]
      rfl
    rw [none]
    exact ⟨List.nodup_nil, nofun, List.nodup_nil, nofun, nofun, nofun, nofun⟩

theorem sound (ok : Ok state) : state.Sound :=
  ⟨ok.ledger.once, fun _ member =>
    ok.ledger.heldUser _ (List.mem_append_left _ (List.mem_map_of_mem member))⟩

theorem stepKernel (ok : Ok state) (frame : List UInt8) : Ok (state.stepKernel frame) := by
  unfold PacketMmap.stepKernel
  dsimp only
  split
  next => exact ok
  next free =>
    refine { ok with pushing := ?_, ledger := ok.ledger.fill (by simpa using free) _ _ }
    intro here
    obtain ⟨packet, sending, sends⟩ := ok.pushing here
    have apart : state.frameIdx ≠ state.kernelIdx := by
      intro same
      exact free (same ▸ sends.2.2.1)
    exact ⟨packet, sending, sends.kept rfl (Function.update_of_ne apart _ _) sends.2.2.2⟩

theorem giveBack (ok : Ok state) {frame : Nat} (releasing : state.releasing = some frame) :
    Ok { state with ring := release frame state.ring, releasing := none } := by
  have held_eq : state.held = state.outstanding.map RingPacket.frame ++ [frame] := by
    rw [held, releasing]
    rfl
  have left_eq : ({ state with ring := release frame state.ring, releasing := none } :
      PacketMmap).held = state.outstanding.map RingPacket.frame := List.append_nil _
  have gone : frame ∉ state.outstanding.map RingPacket.frame := by
    have once := ok.ledger.heldOnce
    rw [held_eq, ← List.concat_eq_append, List.nodup_concat] at once
    exact once.1
  have ledger : Ledger (release frame state.ring) (state.outstanding.map RingPacket.frame)
      (state.handoff.queue.accepted.map RingPacket.fill) state.fills := by
    refine ok.ledger.release ?_ gone ?_
    next =>
      rw [held_eq]
      exact List.sublist_append_left _ _
    next =>
      intro other member notLeft
      rw [held_eq] at member
      simpa [notLeft] using member
  refine { ok with pushing := ?_, ledger := left_eq ▸ ledger }
  intro here
  obtain ⟨packet, sending, sends⟩ := ok.pushing here
  have notHeld := sends.2.2.2
  rw [held_eq, List.mem_append, List.mem_singleton, not_or] at notHeld
  refine ⟨packet, sending, sends.kept rfl (Function.update_of_ne notHeld.2 _ _) ?_⟩
  rw [left_eq]
  exact notHeld.1

theorem parse (ok : Ok state) (releasing : state.releasing = none) :
    Ok { state with
      handoff := state.handoff.work queueCapacity packetsPerBatch fun _ => ()
      releasing := state.handoff.batch.head?.map RingPacket.frame } := by
  have held_eq : state.held = state.outstanding.map RingPacket.frame := by
    rw [held, releasing]
    exact List.append_nil _
  obtain ⟨handoff, sending, accepted, outcome⟩ :=
    ok.handoff.work_cases packetsPerBatch fun _ => ()
  have moved : state.held.Perm
      ({ state with
        handoff := state.handoff.work queueCapacity packetsPerBatch fun _ => ()
        releasing := state.handoff.batch.head?.map RingPacket.frame } : PacketMmap).held := by
    rw [held_eq, held, outstanding, outstanding]
    obtain ⟨packet, rest, first, before, after, -⟩ | ⟨first, same, -⟩ := outcome
    next =>
      rw [before, after, first]
      exact (List.perm_append_singleton _ _).symm
    next =>
      rw [same, first]
      exact List.Perm.of_eq (List.append_nil _).symm
  constructor
  case handoff => exact handoff
  case ready => exact fun here => sending.trans (ok.ready here)
  case pushing =>
    intro here
    obtain ⟨packet, underWay, sends⟩ := ok.pushing here
    refine ⟨packet, sending ▸ underWay, sends.kept rfl rfl ?_⟩
    exact fun member => sends.2.2.2 (moved.mem_iff.mpr member)
  case ledger =>
    rw [accepted]
    exact ok.ledger.perm moved

theorem stepWorker (ok : Ok state) : Ok state.stepWorker := by
  unfold PacketMmap.stepWorker
  split
  next releasing => exact ok.giveBack releasing
  next releasing => exact ok.parse releasing

theorem idle (ok : Ok state) (here : state.receiver ≠ .push) :
    state.handoff.queue.producer = .idle :=
  ok.handoff.idle (ok.ready here)

theorem skip (ok : Ok state) (here : state.receiver = .look) (free : state.frameIdx ∉ state.held) :
    Ok { state with
      ring := release state.frameIdx state.ring
      frameIdx := nextFrame state.frameIdx
      emptyChecks := 0
      receiver := .loopHead } where
  handoff := ok.handoff
  ready := fun _ => ok.ready (by simp [here])
  pushing := nofun
  ledger := ok.ledger.release (List.Sublist.refl _) free fun _ member gone => absurd member gone

theorem startPush (ok : Ok state) (here : state.receiver = .look)
    (user : (state.ring state.frameIdx).user = true) (free : state.frameIdx ∉ state.held)
    {packet : RingPacket} (atFrame : packet.frame = state.frameIdx)
    (fill : packet.fill = (state.ring state.frameIdx).fill) :
    Ok { state with
      handoff := state.handoff.startSend packet, emptyChecks := 0, receiver := .push } := by
  have idle := ok.idle (by simp [here])
  obtain ⟨accepted, same⟩ := ok.handoff.startSend_outstanding idle packet
  have held_eq : ({ state with
      handoff := state.handoff.startSend packet, emptyChecks := 0, receiver := .push } :
        PacketMmap).held = state.held := by
    rw [held, held, outstanding, outstanding, same]
  constructor
  case handoff => exact ok.handoff.startSend idle packet
  case ready => exact fun notPushing => absurd rfl notPushing
  case pushing => exact fun _ => ⟨packet, rfl, atFrame, fill, user, held_eq ▸ free⟩
  case ledger =>
    rw [held_eq, accepted]
    exact ok.ledger

theorem push (ok : Ok state) (here : state.receiver = .push) :
    Ok (state.stepReceiver filterPort) := by
  obtain ⟨packet, sending, sends⟩ := ok.pushing here
  have ledger := ok.ledger
  obtain ⟨handoff, -, outcome⟩ := ok.handoff.send_cases state.gRunning sending
  simp only [PacketMmap.stepReceiver, here]
  obtain ⟨still, accepted, same⟩ | ⟨ready, accepted, grown⟩ | ⟨ready, -, accepted, same⟩ := outcome
  next =>
    split
    next ready => simp [ready, Sending.packet?] at still
    next =>
      have held_eq : ({ state with
          handoff := state.handoff.send queueCapacity state.gRunning, receiver := .push } :
            PacketMmap).held = state.held := by
        rw [held, held, outstanding, outstanding, same]
      refine ⟨handoff, fun notPushing => absurd rfl notPushing, fun _ => ⟨packet, still, ?_⟩, ?_⟩
      next => exact sends.kept rfl rfl (held_eq ▸ sends.2.2.2)
      next =>
        rw [held_eq, accepted]
        exact ledger
  next =>
    rw [ready]
    refine ⟨handoff, fun _ => ready, by simp, ?_⟩
    have delivered := ledger.deliver sends.2.2.1 sends.2.2.2
    rw [← sends.2.1] at delivered
    rw [accepted, List.map_append, held, outstanding, grown, List.map_append, List.append_assoc]
    refine delivered.perm ?_
    rw [held, ← sends.1]
    exact List.perm_middle.symm
  next =>
    rw [ready]
    refine ⟨handoff, fun _ => ready, by simp, ?_⟩
    rw [accepted, held, outstanding, same]
    exact ledger

theorem stepReceiver (ok : Ok state) (released : state.LooksAtReleased .receiver) :
    Ok (state.stepReceiver filterPort) := by
  cases here : state.receiver with
  | loopHead =>
    simp only [PacketMmap.stepReceiver, here]
    split <;> exact { ok with ready := fun _ => ok.ready (by simp [here]), pushing := nofun }
  | look =>
    have free := released here
    simp only [PacketMmap.stepReceiver, here]
    split
    next user =>
      split
      next => exact ok.skip here free
      next => exact ok.startPush here user free rfl rfl
    next => exact { ok with ready := fun _ => ok.ready (by simp [here]), pushing := nofun }
  | checkProducer =>
    simp only [PacketMmap.stepReceiver, here]
    split
    next => split <;> exact { ok with ready := fun _ => ok.ready (by simp [here]), pushing := nofun }
    next => exact { ok with ready := fun _ => ok.ready (by simp [here]), pushing := nofun }
  | push => exact ok.push here
  | left =>
    simp only [PacketMmap.stepReceiver, here]
    exact { ok with ready := fun _ => ok.ready (by simp [here]), pushing := nofun }
  | returned =>
    simp only [PacketMmap.stepReceiver, here]
    exact ok

theorem step (ok : Ok state) {event : RingEvent} (released : state.LooksAtReleased event) :
    Ok (state.step filterPort event) := by
  cases event with
  | kernel frame => exact ok.stepKernel frame
  | receiver => exact ok.stepReceiver released
  | worker => exact ok.stepWorker
  | producerDone => exact { ok with }
  | stop => exact { ok with }

end Ok

theorem frames_delivered_once (filterPort : UInt16) (memory : Nat → Nat → UInt8)
    (cells : Nat → RingPacket) (events : List RingEvent)
    (released : Run.Guarded (step filterPort) LooksAtReleased (start memory cells) events) :
    ∀ done, done <+: events → ((start memory cells).run filterPort done).Sound := by
  rintro done ⟨later, rfl⟩
  have ok : Ok ((start memory cells).run filterPort done) :=
    Run.Guarded.invariant (fun _ _ ok released => ok.step released) (Ok.start memory cells) released
  exact ok.sound

instance (state : PacketMmap) (event : RingEvent) : Decidable (state.LooksAtReleased event) :=
  match event with
  | .receiver => inferInstanceAs (Decidable (_ → _))
  | .kernel _ | .worker | .producerDone | .stop => inferInstanceAs (Decidable True)

def fresh : PacketMmap := start (fun _ _ => 0) fun _ => ⟨0, ⟨0, 0⟩, 0⟩

theorem strip_blank :
    PacketMmapRxConsumer.strip 5001 (Slots.overwrite (fun _ => 0) []) 0 = none := by
  decide

def deliverFirst : List RingEvent := .kernel (udpFrame 0 9 [65]) :: List.replicate 5 .receiver

theorem frames_delivered_once_one_packet :
    let events := deliverFirst ++ List.replicate 7 .worker ++ List.replicate 2 .receiver
    let state := fresh.run 5001 events
    state.handoff.parsed = [(⟨0, ⟨42, 1⟩, 0⟩, ())] ∧ (state.ring 0).user = false ∧ state.Sound := by
  intro events state
  refine ⟨by decide +kernel, by decide +kernel, ?_⟩
  exact frames_delivered_once 5001 (fun _ _ => 0) (fun _ => ⟨0, ⟨0, 0⟩, 0⟩) events
    (by decide +kernel) events List.prefix_rfl

def delivered : PacketMmap := fresh.run 5001 deliverFirst

structure Lapped (n : Nat) (state : PacketMmap) : Prop where
  running : state.gRunning = true
  receiver : state.receiver = .loopHead
  frameIdx : state.frameIdx = n % 65536
  kernelIdx : state.kernelIdx = n % 65536
  first : state.ring 0 = delivered.ring 0
  others : ∀ frame, n ≤ frame → frame < 65536 → state.ring frame = { memory := fun _ => 0 }
  handoff : state.handoff = delivered.handoff

namespace Lapped

variable {state : PacketMmap} {n : Nat}

theorem start : Lapped 1 delivered := by
  constructor
  case others => exact fun frame above _ => Function.update_of_ne (Nat.ne_of_gt above) _ _
  all_goals rfl

theorem skip (lapped : Lapped n state) (positive : 0 < n) (below : n < 65536) :
    Lapped (n + 1) (state.run 5001 [.kernel [], .receiver, .receiver]) := by
  have here : n % 65536 = n := Nat.mod_eq_of_lt below
  have free := lapped.others n (Nat.le_refl n) below
  have executed : state.run 5001 [.kernel [], .receiver, .receiver] = ?_ := by
    simp only [run, List.foldl_cons, List.foldl_nil, step, stepKernel, lapped.kernelIdx, here, free,
      stepReceiver, lapped.receiver, lapped.running, lapped.frameIdx, Function.update_self,
      strip_blank, Bool.false_eq_true, if_false, if_true, List.length_nil]
    rfl
  have elsewhere {frame : Nat} (apart : frame ≠ n) (filled : RingFrame) :
      release n (Function.update state.ring n filled) frame = state.ring frame := by
    rw [release, Function.update_of_ne apart, Function.update_of_ne apart]
  rw [executed]
  constructor
  case running => rfl
  case receiver => rfl
  case frameIdx => exact nextFrame_eq n
  case kernelIdx => rfl
  case first => exact (elsewhere (Nat.ne_of_lt positive) _).trans lapped.first
  case others =>
    intro frame above inside
    exact (elsewhere (Nat.ne_of_gt above) _).trans (lapped.others frame (Nat.le_of_lt above) inside)
  case handoff => exact lapped.handoff

theorem rounds (lapped : Lapped n state) (positive : 0 < n) (k : Nat) (below : n + k ≤ 65536) :
    Lapped (n + k)
      (state.run 5001 (List.replicate k [.kernel [], .receiver, .receiver]).flatten) := by
  induction k generalizing n state with
  | zero => exact lapped
  | succ k ih =>
    rw [List.replicate_succ, List.flatten_cons, run_append]
    have next := ih (lapped.skip positive (by omega)) (by omega) (by omega)
    rwa [Nat.add_right_comm] at next

theorem again (lapped : Lapped 65536 state) :
    (state.run 5001 (List.replicate 5 .receiver)).handoff.queue.accepted.map RingPacket.fill =
      [0, 0] := by
  have frameIdx : state.frameIdx = 0 := lapped.frameIdx
  have user : (delivered.ring 0).user = true := rfl
  have fill : (delivered.ring 0).fill = 0 := rfl
  have carries : PacketMmapRxConsumer.strip 5001 (delivered.ring 0).memory
      (delivered.ring 0).captured = some ⟨42, 1⟩ := by decide
  have producer : delivered.handoff.queue.producer = .idle := rfl
  have writePos : delivered.handoff.queue.writePos = 1 := rfl
  have cachedReadPos : delivered.handoff.queue.cachedReadPos = 0 := rfl
  have accepted : delivered.handoff.queue.accepted = [⟨0, ⟨42, 1⟩, 0⟩] := rfl
  simp [run, List.replicate, step, stepReceiver, Handoff.startSend, Handoff.send,
    Execution.enterPush, Execution.produce, Sending.after, Execution.write, Execution.publish,
    lapped.receiver, lapped.running, lapped.first, lapped.handoff, frameIdx, user, fill, carries,
    producer, writePos, cachedReadPos, accepted, queueCapacity]

end Lapped

def goRound : List RingEvent :=
  (List.replicate 65535 [.kernel [], .receiver, .receiver]).flatten

theorem lapped_goRound : Lapped 65536 (delivered.run 5001 goRound) :=
  Lapped.start.rounds (by decide) 65535 (by decide)

theorem held_frame_delivered_twice :
    (fresh.run 5001 (deliverFirst ++ (goRound ++ List.replicate 5 .receiver))).handoff.queue.accepted.map
        RingPacket.fill = [0, 0] ∧
      ¬ (fresh.run 5001 (deliverFirst ++ (goRound ++ List.replicate 5 .receiver))).Sound := by
  have twice := lapped_goRound.again
  rw [← run_append, delivered, ← run_append] at twice
  refine ⟨twice, ?_⟩
  rintro ⟨once, -⟩
  rw [twice] at once
  simp at once

end PacketMmap

end HftFixEngine.Networking
