import HftFixEngine.Protocol.FixParser

set_option autoImplicit false

namespace HftFixEngine.Protocol

open Word

inductive ProtocolType where
  | fix
  | ouch
  | sbe
  deriving DecidableEq, Repr

def littleEndian (bytes : Bytes) : Nat := bytes.foldr (fun byte value => byte.toNat + 256 * value) 0

-- The bytes of a number in the byte order of the target, which is little endian.
def littleEndianBytes : Nat → Nat → Bytes
  | 0, _ => []
  | width + 1, number => UInt8.ofNat (number % 256) :: littleEndianBytes width (number / 256)

def field (payload : Bytes) (offset size : Nat) : Bytes := (payload.drop offset).take size

def trimRight (view : Bytes) : Bytes :=
  (view.reverse.dropWhile fun char => decide (char = 32) || decide (char = 0)).reverse

def toChars (number : Nat) : Bytes :=
  (Nat.toDigits 10 number).map fun digit => UInt8.ofNat digit.toNat

-- The packed fields of `SbeNewOrderSinglePacket` that the parser reads.
structure SbeNewOrderSinglePacket where
  seqNum : Nat
  clOrdIdNum : Nat
  priceScaled : Nat
  quantity : Nat
  side : UInt8
  symbol : Bytes

def SbeNewOrderSinglePacket.bytes (packet : SbeNewOrderSinglePacket) : Bytes :=
  List.replicate 8 0 ++ littleEndianBytes 8 packet.seqNum ++
    littleEndianBytes 8 packet.clOrdIdNum ++ littleEndianBytes 8 packet.priceScaled ++
    littleEndianBytes 4 packet.quantity ++ packet.side :: packet.symbol.take 8 ++
    List.replicate (8 - packet.symbol.length) 32 ++ [0]

namespace ProtocolParser

abbrev ouchEnterOrderPacketSize : Nat := 46
abbrev sbeNewOrderSinglePacketSize : Nat := 46
abbrev clOrdIdBufSize : Nat := 24

def parseOuch (payload : Bytes) : ParsedOrder :=
  let side := (field payload 23 1).headD 0
  { msgType := [68]
    msgTypeChar := 68
    seqNum := littleEndian (field payload 1 8)
    clOrdId := trimRight (field payload 9 14)
    symbol := trimRight (field payload 32 6)
    side := if side = 66 ∨ side = 49 then 1 else 2
    quantity := wrapInt32 (littleEndian (field payload 24 4))
    price := littleEndian (field payload 28 4) }

def parseSbe (payload : Bytes) : ParsedOrder :=
  let id := toChars (littleEndian (field payload 16 8))
  { msgType := [68]
    msgTypeChar := 68
    seqNum := littleEndian (field payload 8 8)
    clOrdId := if id.length ≤ clOrdIdBufSize - 1 then id else []
    symbol := trimRight (field payload 37 8)
    side := ((field payload 36 1).headD 0).toNat
    quantity := wrapInt32 (littleEndian (field payload 32 4))
    price := wrapInt64 (littleEndian (field payload 24 8)) }

def parseInPlace (type : ProtocolType) (payload : Option Bytes) : ParsedOrder :=
  match payload with
  | none => {}
  | some bytes =>
    if bytes.length = 0 then {}
    else
      match type with
      | .ouch => if bytes.length < ouchEnterOrderPacketSize then {} else parseOuch bytes
      | .sbe => if bytes.length < sbeNewOrderSinglePacketSize then {} else parseSbe bytes
      | .fix => FixParser.parseInPlace bytes (u32 bytes.length)

-- The id of an SBE order shows the buffer inside of the local order that `parse_in_place` fills. The
-- order is returned by value, and once the local one is gone the view shows `stale`, whatever that is.
def received (type : ProtocolType) (payload : Option Bytes) (stale : Bytes) : ParsedOrder :=
  let order := parseInPlace type payload
  { order with
    clOrdId := if type = .sbe ∧ order.msgTypeChar = 68 then stale else order.clOrdId }

theorem received_of_ne_sbe {type : ProtocolType} (payload : Option Bytes) (stale : Bytes)
    (other : type ≠ .sbe) : received type payload stale = parseInPlace type payload := by
  simp [received, other]

end ProtocolParser

theorem littleEndian_lt (bytes : Bytes) : littleEndian bytes < 256 ^ bytes.length := by
  induction bytes with
  | nil => simp [littleEndian]
  | cons byte bytes ih =>
      have small := byte.toNat_lt
      simp only [littleEndian, List.foldr_cons, List.length_cons, Nat.pow_succ] at ih ⊢
      omega

theorem littleEndian_field_lt (payload : Bytes) (offset size : Nat) :
    littleEndian (field payload offset size) < 256 ^ size := by
  refine Nat.lt_of_lt_of_le (littleEndian_lt _) (Nat.pow_le_pow_right (by decide) ?_)
  exact List.length_take_le _ _

namespace ProtocolParser

theorem parseOuch_wellTyped (payload : Bytes) : (parseOuch payload).WellTyped := by
  have seqNum := littleEndian_field_lt payload 1 8
  have price := littleEndian_field_lt payload 28 4
  refine ⟨?_, ?_, ?_, ?_⟩ <;> simp only [parseOuch]
  next => split_ifs <;> simp [InInt32]
  next => exact wrapInt32_inInt32 _
  next =>
    simp only [InInt64]
    omega
  next => omega

theorem parseSbe_wellTyped (payload : Bytes) : (parseSbe payload).WellTyped := by
  have seqNum := littleEndian_field_lt payload 8 8
  have side := ((field payload 36 1).headD 0).toNat_lt
  refine ⟨?_, ?_, ?_, ?_⟩ <;> simp only [parseSbe]
  next =>
    simp only [InInt32]
    omega
  next => exact wrapInt32_inInt32 _
  next => exact wrapInt64_inInt64 _
  next => omega

theorem parseInPlace_wellTyped (type : ProtocolType) (payload : Option Bytes) :
    (parseInPlace type payload).WellTyped := by
  cases payload with
  | none => exact defaultOrder_wellTyped
  | some bytes =>
      simp only [parseInPlace]
      split
      next => exact defaultOrder_wellTyped
      next =>
        cases type with
        | ouch =>
            simp only
            split
            next => exact defaultOrder_wellTyped
            next => exact parseOuch_wellTyped bytes
        | sbe =>
            simp only
            split
            next => exact defaultOrder_wellTyped
            next => exact parseSbe_wellTyped bytes
        | fix => exact FixParser.parseInPlace_wellTyped bytes _

theorem received_wellTyped (type : ProtocolType) (payload : Option Bytes) (stale : Bytes) :
    (received type payload stale).WellTyped := by
  obtain ⟨side, quantity, price, seqNum⟩ := parseInPlace_wellTyped type payload
  exact ⟨side, quantity, price, seqNum⟩

end ProtocolParser

end HftFixEngine.Protocol
