import HftFixEngine.Protocol.ParsedOrder
import HftFixEngine.Shared.Loop
import HftFixEngine.Shared.Ring

set_option autoImplicit false

namespace HftFixEngine.Protocol

open Word

def maxPayloadLen : Nat := 512

structure ReorderSlot where
  seqNum : Nat := 0
  payloadLen : Nat := 0
  payload : Nat → UInt8 := fun _ => 0
  occupied : Bool := false

namespace ReorderSlot

def text (slot : ReorderSlot) : Bytes := Slots.first slot.payload slot.payloadLen

-- Without a payload the length is taken over and the old characters stay.
def store (slot : ReorderSlot) (seqNum : Nat) (payload : Option Bytes) (len : Nat) : ReorderSlot :=
  let payloadLen := min len maxPayloadLen
  { seqNum
    payloadLen
    payload :=
      match payload with
      | some bytes =>
        if 0 < payloadLen then
          Function.update (Slots.overwrite slot.payload (bytes.take payloadLen)) payloadLen 0
        else slot.payload
      | none => slot.payload
    occupied := true }

end ReorderSlot

structure SequenceReorderBuffer where
  expectedSeq : Nat
  outOfOrderBufferedCount : Nat := 0
  duplicatesCount : Nat := 0
  overflowCount : Nat := 0
  ring : Nat → ReorderSlot := fun _ => {}

namespace SequenceReorderBuffer

variable (capacity : Nat)

def index (seqNum : Nat) : Nat := seqNum &&& (capacity - 1)

structure Drain where
  buffer : SequenceReorderBuffer
  outEmitted : List Bytes
  drained : Nat := 0

def slotDue (drain : Drain) : Bool :=
  let slot := drain.buffer.ring (index capacity drain.buffer.expectedSeq)
  slot.occupied && decide (slot.seqNum = drain.buffer.expectedSeq)

def drainSlot (drain : Drain) : Drain :=
  let idx := index capacity drain.buffer.expectedSeq
  let slot := drain.buffer.ring idx
  { buffer :=
      { drain.buffer with
        ring := Function.update drain.buffer.ring idx { slot with occupied := false }
        expectedSeq := u64 (drain.buffer.expectedSeq + 1) }
    outEmitted := drain.outEmitted ++ [slot.text]
    drained := drain.drained + 1 }

-- Every round empties a slot, so `capacity` rounds are enough for the endless loop.
def drainBuffered (buffer : SequenceReorderBuffer) (outEmitted : List Bytes) : Drain :=
  Loop.run (slotDue capacity) (drainSlot capacity) capacity { buffer, outEmitted }

def push (buffer : SequenceReorderBuffer) (seqNum : Nat) (payload : Option Bytes) (len : Nat)
    (outEmitted : List Bytes) : Nat × SequenceReorderBuffer × List Bytes :=
  if seqNum = buffer.expectedSeq then
    let direct :=
      match payload with
      | some bytes => if 0 < len then [bytes.take len] else []
      | none => []
    let buffer := { buffer with expectedSeq := u64 (buffer.expectedSeq + 1) }
    let drain := buffer.drainBuffered capacity (outEmitted ++ direct)
    (direct.length + drain.drained, drain.buffer, drain.outEmitted)
  else if seqNum > buffer.expectedSeq then
    if seqNum < u64 (buffer.expectedSeq + capacity) then
      let idx := index capacity seqNum
      let slot := buffer.ring idx
      (0,
        { buffer with
          ring := Function.update buffer.ring idx (slot.store seqNum payload len)
          outOfOrderBufferedCount := u64 (buffer.outOfOrderBufferedCount + 1) },
        outEmitted)
    else (0, { buffer with overflowCount := u64 (buffer.overflowCount + 1) }, outEmitted)
  else (0, { buffer with duplicatesCount := u64 (buffer.duplicatesCount + 1) }, outEmitted)

-- The characters and lengths of the slots are left as they are.
def reset (buffer : SequenceReorderBuffer) (initialExpected : Nat) : SequenceReorderBuffer :=
  { expectedSeq := initialExpected
    ring := fun i => { buffer.ring i with occupied := false, seqNum := 0 } }

end SequenceReorderBuffer

end HftFixEngine.Protocol
