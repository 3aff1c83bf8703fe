import HftFixEngine.Networking.DirectQueue
import HftFixEngine.Scripts.GeneratedDataset

set_option autoImplicit false

namespace HftFixEngine.Scripts.MultiProtocol

open Protocol Networking Engine Common

theorem take_numbered {β : Type} (make : Nat → Draw → β) (draws : List Draw) (count : Nat) :
    (numbered make draws).take count = numbered make (draws.take count) := by
  apply List.ext_getElem?
  intro i
  simp only [numbered, List.getElem?_take, List.getElem?_map, List.getElem?_zipIdx]
  split <;> rfl

def directPayload (packet : DirectPacket) : Option Bytes := some (packet.payload.take packet.payloadLen)

theorem directPayload_packet {message : Bytes} (short : message.length ≤ 512) :
    directPayload (DirectQueue.packet message) = some message := by
  have whole : min message.length Networking.maxPayloadLen % 65536 = message.length := by
    simp only [Networking.maxPayloadLen]
    omega
  simp only [directPayload, DirectQueue.packet, whole, List.take_length]

section Worker

variable {type : ProtocolType} {messages : List Bytes} {state : DirectQueue}

-- The worker has taken the first messages out, as many as it has parsed.
theorem taken_eq (ok : DirectQueue.Ok type messages state) :
    state.handoff.parsed.map Prod.fst =
      (messages.take state.orders.length).map DirectQueue.packet := by
  have whole := ok.whole
  rw [← ok.handoff.accepted_eq, List.append_assoc, List.append_assoc] at whole
  have length : state.orders.length = (state.handoff.parsed.map Prod.fst).length := by
    rw [DirectQueue.orders, List.length_map, List.length_map]
  rw [List.map_take, ← whole, length, List.take_left']
  rfl

theorem all_taken (ok : DirectQueue.Ok type messages state) (returned : state.producer = .returned)
    (drained : state.outstanding = []) : state.orders.length = messages.length := by
  refine Nat.le_antisymm ?_ (Nat.le_of_not_lt fun missing => ?_)
  next =>
    have below := ok.orders_prefix.length_le
    rwa [DirectQueue.expected, List.length_map] at below
  next =>
    have rest := ok.missing drained missing
    simp [returned, DirectProducer.pushing, DirectProducer.messages] at rest

end Worker

theorem direct_run_screened (type : ProtocolType) (file : Dataset) (draws : List Draw)
    (content : file.content = generateMessages type draws)
    (named : type = .sbe → (ascii ".data").isSuffixOf file.path = true)
    (few : draws.length < 2 ^ 32) (cells : Nat → DirectPacket) (schedule : List DirectThread)
    (packets : List Engine.Packet)
    (carried :
      let start := DirectQueue.start (UdpFixProducer.loadedMessages file) cells
      packets.map Engine.Packet.payload =
        (start.run type schedule).handoff.parsed.map fun reading => directPayload reading.1) :
    let start := DirectQueue.start (UdpFixProducer.loadedMessages file) cells
    let state := start.run type schedule
    Screened (HftOrderBookEngine.run type packets) (draws.take packets.length) ∧
      (state.producer = .returned → state.outstanding = [] → packets.length = draws.length) ∧
      ∃ later, (start.run type (schedule ++ later)).orders.length = draws.length := by
  intro start state
  have loaded := (loadedMessages_generated type file draws content named).1
  have ok : DirectQueue.Ok type (UdpFixProducer.loadedMessages file) state :=
    (DirectQueue.Ok.start cells).run schedule
  have count : packets.length = state.orders.length := by
    have lengths := congrArg List.length carried
    rw [List.length_map, List.length_map] at lengths
    exact lengths.trans (List.length_map Prod.snd).symm
  have total : (UdpFixProducer.loadedMessages file).length = draws.length := by
    rw [loaded, length_numbered]
  refine ⟨?_, ?_, ?_⟩
  next =>
    refine screened_of_carried (Nat.lt_of_le_of_lt (List.length_take_le' _ _) few) ?_
    have taken := congrArg (List.map directPayload) (taken_eq ok)
    rw [List.map_map, List.map_map, ← count, loaded, take_numbered] at taken
    refine carried.trans (taken.trans (List.map_congr_left fun message member => ?_))
    obtain ⟨⟨draw, i⟩, drawn, rfl⟩ := List.mem_map.mp member
    obtain ⟨above, below, -⟩ := List.mem_zipIdx drawn
    rw [List.length_take] at below
    exact directPayload_packet (length_payload type i draw (by omega))
  next =>
    intro returned drained
    rw [count, all_taken ok returned drained, total]
  next =>
    obtain ⟨later, all⟩ := DirectQueue.reaches_all ok
    refine ⟨later, ?_⟩
    rw [DirectQueue.run_append, all, DirectQueue.expected, List.length_map, total]

-- The worker has taken the first of two messages.
theorem direct_run_screened_first :
    let cells : Nat → DirectPacket := fun _ => ⟨[], 0⟩
    let start := DirectQueue.start (UdpFixProducer.loadedMessages twoMessages) cells
    let state := start.run .sbe (List.replicate 8 .producer ++ List.replicate 7 .worker)
    let packets := state.handoff.parsed.map fun reading =>
      ({ payload := directPayload reading.1, latencyNs := 0, currentTs := 0 } : Engine.Packet)
    packets.length = 1 ∧ Screened (HftOrderBookEngine.run .sbe packets) [plainDraw] := by
  intro cells start state packets
  have length : packets.length = 1 := by decide +kernel
  have screened := (direct_run_screened .sbe twoMessages [plainDraw, collarDraw] rfl
    (fun _ => by decide +kernel) (by decide) cells
    (List.replicate 8 .producer ++ List.replicate 7 .worker) packets
    (by simp only [packets, List.map_map]; rfl)).1
  rw [length] at screened
  exact ⟨length, screened⟩

end HftFixEngine.Scripts.MultiProtocol
