import Mathlib.Data.List.Basic
import Mathlib.Tactic.Common

set_option autoImplicit false

namespace HftFixEngine.Networking

def maxPayloadLen : Nat := 512

def ethHeaderLen : Nat := 14

def ipHeaderLen : Nat := 20

def udpHeaderLen : Nat := 8

def ethPIp : Nat := 0x0800

def ipprotoUdp : Nat := 17

namespace FrameHeaders

variable (rawFrame : Nat → UInt8)

-- A 16-bit field in network byte order. `rawFrame` is the memory from the first byte of the frame on,
-- captured or not.
def ntohs (offset : Nat) : Nat := (rawFrame offset).toNat * 256 + (rawFrame (offset + 1)).toNat

def hProto : Nat := ntohs rawFrame 12

def ihl : Nat := (rawFrame ethHeaderLen).toNat % 16

def protocol : Nat := (rawFrame (ethHeaderLen + 9)).toNat

def udp : Nat := ethHeaderLen + ihl rawFrame * 4

def dest : Nat := ntohs rawFrame (udp rawFrame + 2)

def udpLen : Nat := ntohs rawFrame (udp rawFrame + 4)

-- The difference is taken in 64 bits and cut to 16.
def payloadLen : Nat := (udpLen rawFrame + (65536 - udpHeaderLen)) % 65536

def headerBytes : List Nat :=
  [12, 13, ethHeaderLen, ethHeaderLen + 9, udp rawFrame + 2, udp rawFrame + 3, udp rawFrame + 4,
    udp rawFrame + 5]

theorem ntohs_lt (offset : Nat) : ntohs rawFrame offset < 65536 := by
  have high := (rawFrame offset).toNat_lt
  have low := (rawFrame (offset + 1)).toNat_lt
  unfold ntohs
  omega

theorem payloadLen_valid :
    (payloadLen rawFrame > 0 ∧ payloadLen rawFrame ≤ maxPayloadLen) ↔
      9 ≤ udpLen rawFrame ∧ udpLen rawFrame ≤ 520 := by
  have bound := ntohs_lt rawFrame (udp rawFrame + 4)
  unfold payloadLen maxPayloadLen udpHeaderLen
  unfold udpLen
  omega

theorem payloadLen_eq (valid : 9 ≤ udpLen rawFrame ∧ udpLen rawFrame ≤ 520) :
    payloadLen rawFrame = udpLen rawFrame - 8 := by
  unfold payloadLen udpHeaderLen
  omega

end FrameHeaders

structure Payload where
  offset : Nat
  len : Nat
  deriving DecidableEq, Repr

def Payload.read (payload : Payload) (rawFrame : Nat → UInt8) : List UInt8 :=
  (List.range payload.len).map fun i => rawFrame (payload.offset + i)

open FrameHeaders in
def stripHeaders (filterPort : UInt16) (rawFrame : Nat → UInt8) : Option Payload :=
  if hProto rawFrame = ethPIp then
    if protocol rawFrame = ipprotoUdp then
      if dest rawFrame = filterPort.toNat then
        if payloadLen rawFrame > 0 ∧ payloadLen rawFrame ≤ maxPayloadLen then
          some ⟨udp rawFrame + udpHeaderLen, payloadLen rawFrame⟩
        else none
      else none
    else none
  else none

-- The ring header's captured length is not looked at.
def PacketMmapRxConsumer.strip (filterPort : UInt16) (rawFrame : Nat → UInt8) (_captured : Nat) :
    Option Payload :=
  stripHeaders filterPort rawFrame

def AfXdpRxConsumer.strip (filterPort : UInt16) (rawFrame : Nat → UInt8) (len : Nat) :
    Option Payload :=
  if len ≥ ethHeaderLen + ipHeaderLen + udpHeaderLen then stripHeaders filterPort rawFrame else none

def IsForPort (filterPort : UInt16) (rawFrame : Nat → UInt8) : Prop :=
  FrameHeaders.hProto rawFrame = ethPIp ∧ FrameHeaders.protocol rawFrame = ipprotoUdp ∧
    FrameHeaders.dest rawFrame = filterPort.toNat ∧
    9 ≤ FrameHeaders.udpLen rawFrame ∧ FrameHeaders.udpLen rawFrame ≤ 520

def FieldsFit (rawFrame : Nat → UInt8) (captured : Nat) : Prop :=
  5 ≤ FrameHeaders.ihl rawFrame ∧
    14 + 4 * FrameHeaders.ihl rawFrame + FrameHeaders.udpLen rawFrame ≤ captured

def StaysInside (rawFrame : Nat → UInt8) (captured : Nat) (payload : Payload) : Prop :=
  (∀ offset ∈ FrameHeaders.headerBytes rawFrame, offset < captured) ∧
    payload.offset = 14 + 4 * FrameHeaders.ihl rawFrame + 8 ∧
    5 ≤ FrameHeaders.ihl rawFrame ∧
    14 + 4 * FrameHeaders.ihl rawFrame + 8 + payload.len ≤ captured

theorem stripHeaders_eq_some_iff (filterPort : UInt16) (rawFrame : Nat → UInt8) (payload : Payload) :
    stripHeaders filterPort rawFrame = some payload ↔
      IsForPort filterPort rawFrame ∧
        payload = ⟨FrameHeaders.udp rawFrame + 8, FrameHeaders.udpLen rawFrame - 8⟩ := by
  unfold stripHeaders IsForPort
  simp only [FrameHeaders.payloadLen_valid]
  split_ifs with ip udp port valid
  next =>
    rw [FrameHeaders.payloadLen_eq rawFrame valid]
    simp only [ip, udp, port, valid, Option.some.injEq, true_and, and_self]
    exact eq_comm
  next => exact ⟨nofun, fun accepted => absurd accepted.1.2.2.2 valid⟩
  next => exact ⟨nofun, fun accepted => absurd accepted.1.2.2.1 port⟩
  next => exact ⟨nofun, fun accepted => absurd accepted.1.2.1 udp⟩
  next => exact ⟨nofun, fun accepted => absurd accepted.1.1 ip⟩

theorem staysInside_iff {filterPort : UInt16} {rawFrame : Nat → UInt8} {captured : Nat}
    {payload : Payload} (found : stripHeaders filterPort rawFrame = some payload) :
    StaysInside rawFrame captured payload ↔ FieldsFit rawFrame captured := by
  obtain ⟨⟨-, -, -, long, -⟩, rfl⟩ := (stripHeaders_eq_some_iff _ _ _).mp found
  simp only [StaysInside, FieldsFit, FrameHeaders.headerBytes, FrameHeaders.udp, ethHeaderLen,
    List.forall_mem_cons, List.not_mem_nil, false_implies, implies_true, and_true]
  omega

theorem stripHeaders_inside_iff (filterPort : UInt16) (rawFrame : Nat → UInt8) (captured : Nat) :
    (∀ payload, stripHeaders filterPort rawFrame = some payload →
        StaysInside rawFrame captured payload) ↔
      (IsForPort filterPort rawFrame → FieldsFit rawFrame captured) := by
  constructor
  next =>
    intro inside isForPort
    have found := (stripHeaders_eq_some_iff _ _ _).mpr ⟨isForPort, rfl⟩
    exact (staysInside_iff found).mp (inside _ found)
  next =>
    intro fit payload found
    have isForPort := ((stripHeaders_eq_some_iff _ _ _).mp found).1
    exact (staysInside_iff found).mpr (fit isForPort)

theorem header_stripping_inside_iff (filterPort : UInt16) (rawFrame : Nat → UInt8) (captured : Nat) :
    ((∀ payload, PacketMmapRxConsumer.strip filterPort rawFrame captured = some payload →
        StaysInside rawFrame captured payload) ↔
      (IsForPort filterPort rawFrame → FieldsFit rawFrame captured)) ∧
    ((∀ payload, AfXdpRxConsumer.strip filterPort rawFrame captured = some payload →
        StaysInside rawFrame captured payload) ↔
      (42 ≤ captured → IsForPort filterPort rawFrame → FieldsFit rawFrame captured)) := by
  refine ⟨stripHeaders_inside_iff filterPort rawFrame captured, ?_⟩
  unfold AfXdpRxConsumer.strip ethHeaderLen ipHeaderLen udpHeaderLen
  split
  next long =>
    rw [stripHeaders_inside_iff]
    exact ⟨fun fit _ => fit, fun fit => fit long⟩
  next short =>
    exact ⟨fun _ long => absurd long short, fun _ => nofun⟩

def udpFrame (high low : UInt8) (payload : List UInt8) : List UInt8 :=
  [0, 0, 0, 0, 0, 0, 0, 0, 0, 0, 0, 0, 0x08, 0x00] ++
    [0x45, 0, 0, 0, 0, 0, 0, 0, 64, 17, 0, 0, 127, 0, 0, 1, 127, 0, 0, 1] ++
    [0x13, 0x88, 0x13, 0x89, high, low, 0, 0] ++ payload

theorem headers_only_payload_outside :
    let frame := udpFrame 0x02 0x08 []
    let rawFrame := fun offset => frame.getD offset 0
    PacketMmapRxConsumer.strip 5001 rawFrame frame.length = some ⟨42, 512⟩ ∧
      AfXdpRxConsumer.strip 5001 rawFrame frame.length = some ⟨42, 512⟩ ∧
      frame.length = 42 ∧ ¬ StaysInside rawFrame frame.length ⟨42, 512⟩ := by
  intro frame rawFrame
  refine ⟨by decide, by decide, by decide, ?_⟩
  rintro ⟨-, -, -, inside⟩
  revert inside
  decide

end HftFixEngine.Networking
