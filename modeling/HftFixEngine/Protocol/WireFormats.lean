import HftFixEngine.Protocol.FixFields

set_option autoImplicit false

namespace HftFixEngine.Protocol

open Word Scan

theorem length_littleEndianBytes (width number : Nat) :
    (littleEndianBytes width number).length = width := by
  induction width generalizing number with
  | zero => rfl
  | succ width ih => simp [littleEndianBytes, ih]

theorem littleEndian_littleEndianBytes (width number : Nat) :
    littleEndian (littleEndianBytes width number) = number % 256 ^ width := by
  induction width generalizing number with
  | zero => simp [littleEndianBytes, littleEndian, Nat.mod_one]
  | succ width ih =>
    have later := ih (number / 256)
    have power : 256 ^ (width + 1) = 256 * 256 ^ width := Nat.pow_succ'
    unfold littleEndian at later ⊢
    rw [littleEndianBytes, List.foldr_cons, later, UInt8.toNat_ofNat', power, Nat.mod_mul]
    omega

theorem field_past (before rest : Bytes) (offset size : Nat) (fits : before.length ≤ offset) :
    field (before ++ rest) offset size = field rest (offset - before.length) size := by
  rw [field, List.drop_append, List.drop_eq_nil_of_le fits, List.nil_append]
  rfl

theorem field_here (written after : Bytes) (size : Nat) (long : written.length = size) :
    field (written ++ after) 0 size = written := by
  subst long
  simp [field]

theorem trimRight_padded (text : Bytes) (count : Nat)
    (ends : ∀ char, text.getLast? = some char → char ≠ 32 ∧ char ≠ 0) :
    trimRight (text ++ List.replicate count 32) = text := by
  have stops : Stops (fun char : UInt8 => decide (char = 32) || decide (char = 0)) text.reverse := by
    intro char front
    rw [List.head?_reverse] at front
    simpa using ends char front
  have pad : ∀ char, char ∈ List.replicate count (32 : UInt8) →
      (decide (char = 32) || decide (char = 0)) = true := by
    intro char member
    simp [List.eq_of_mem_replicate member]
  rw [trimRight, List.reverse_append, List.reverse_replicate, dropWhile_body pad stops,
    List.reverse_reverse]

structure OuchEnterOrderPacket where
  packetType : UInt8 := 79
  seqNum : Nat
  clOrdId : Bytes
  side : UInt8
  quantity : Nat
  priceScaled : Nat
  symbol : Bytes
  timestampNs : Nat
  clOrdId_length : clOrdId.length = 14
  symbol_length : symbol.length = 6

def OuchEnterOrderPacket.bytes (packet : OuchEnterOrderPacket) : Bytes :=
  [packet.packetType] ++ (littleEndianBytes 8 packet.seqNum ++ (packet.clOrdId ++ ([packet.side] ++
    (littleEndianBytes 4 packet.quantity ++ (littleEndianBytes 4 packet.priceScaled ++
      (packet.symbol ++ littleEndianBytes 8 packet.timestampNs))))))

structure SbeHeader where
  blockLength : Nat
  templateId : Nat
  schemaId : Nat
  version : Nat

def SbeHeader.bytes (header : SbeHeader) : Bytes :=
  littleEndianBytes 2 header.blockLength ++ littleEndianBytes 2 header.templateId ++
    littleEndianBytes 2 header.schemaId ++ littleEndianBytes 2 header.version

def SbeNewOrderSinglePacket.framed (packet : SbeNewOrderSinglePacket) (header : SbeHeader)
    (timeInForce : UInt8) : Bytes :=
  header.bytes ++ (littleEndianBytes 8 packet.seqNum ++ (littleEndianBytes 8 packet.clOrdIdNum ++
    (littleEndianBytes 8 packet.priceScaled ++ (littleEndianBytes 4 packet.quantity ++
      ([packet.side] ++
        ((packet.symbol.take 8 ++ List.replicate (8 - packet.symbol.length) 32) ++
          [timeInForce]))))))

namespace OuchEnterOrderPacket

variable (packet : OuchEnterOrderPacket)

theorem length_bytes : packet.bytes.length = 46 := by
  simp [bytes, length_littleEndianBytes, packet.clOrdId_length, packet.symbol_length]

theorem parseInPlace_bytes :
    ProtocolParser.parseInPlace .ouch (some packet.bytes) = ProtocolParser.parseOuch packet.bytes := by
  simp [ProtocolParser.parseInPlace, packet.length_bytes]

theorem parseOuch_bytes :
    ProtocolParser.parseOuch packet.bytes =
      { msgType := [68]
        msgTypeChar := 68
        seqNum := packet.seqNum % 256 ^ 8
        clOrdId := trimRight packet.clOrdId
        symbol := trimRight packet.symbol
        side := if packet.side = 66 ∨ packet.side = 49 then 1 else 2
        quantity := wrapInt32 (packet.quantity % 256 ^ 4 : Nat)
        price := (packet.priceScaled % 256 ^ 4 : Nat) } := by
  have id := packet.clOrdId_length
  have symbol := packet.symbol_length
  have seqNumField : field packet.bytes 1 8 = littleEndianBytes 8 packet.seqNum := by
    simp only [bytes, field_past, field_here, List.length_singleton, length_littleEndianBytes,
      Nat.reduceLeDiff, Nat.reduceSub]
  have idField : field packet.bytes 9 14 = packet.clOrdId := by
    simp only [bytes, field_past, field_here, List.length_singleton, length_littleEndianBytes, id,
      Nat.reduceLeDiff, Nat.reduceSub]
  have sideField : field packet.bytes 23 1 = [packet.side] := by
    simp only [bytes, field_past, field_here, List.length_singleton, length_littleEndianBytes, id,
      Nat.reduceLeDiff, Nat.reduceSub]
  have quantityField : field packet.bytes 24 4 = littleEndianBytes 4 packet.quantity := by
    simp only [bytes, field_past, field_here, List.length_singleton, length_littleEndianBytes, id,
      Nat.reduceLeDiff, Nat.reduceSub]
  have priceField : field packet.bytes 28 4 = littleEndianBytes 4 packet.priceScaled := by
    simp only [bytes, field_past, field_here, List.length_singleton, length_littleEndianBytes, id,
      Nat.reduceLeDiff, Nat.reduceSub]
  have symbolField : field packet.bytes 32 6 = packet.symbol := by
    simp only [bytes, field_past, field_here, List.length_singleton, length_littleEndianBytes, id,
      symbol, Nat.reduceLeDiff, Nat.reduceSub]
  simp only [ProtocolParser.parseOuch, seqNumField, idField, sideField, quantityField, priceField,
    symbolField, littleEndian_littleEndianBytes, List.headD_cons]

end OuchEnterOrderPacket

namespace SbeNewOrderSinglePacket

variable (packet : SbeNewOrderSinglePacket) (header : SbeHeader) (timeInForce : UInt8)

theorem length_header : header.bytes.length = 8 := by
  simp [SbeHeader.bytes, length_littleEndianBytes]

theorem length_framed : (packet.framed header timeInForce).length = 46 := by
  simp [framed, length_littleEndianBytes, length_header]
  omega

theorem parseInPlace_framed :
    ProtocolParser.parseInPlace .sbe (some (packet.framed header timeInForce)) =
      ProtocolParser.parseSbe (packet.framed header timeInForce) := by
  simp [ProtocolParser.parseInPlace, packet.length_framed]

-- Twenty digits are enough for 64 bits, so the id always fits its buffer.
theorem clOrdId_fits :
    (toChars (packet.clOrdIdNum % 256 ^ 8)).length ≤ ProtocolParser.clOrdIdBufSize - 1 := by
  have digits : (toChars (packet.clOrdIdNum % 256 ^ 8)).length ≤ 20 :=
    length_toChars_le (by decide) (by omega)
  exact Nat.le_trans digits (by decide)

theorem parseSbe_framed :
    ProtocolParser.parseSbe (packet.framed header timeInForce) =
      { msgType := [68]
        msgTypeChar := 68
        seqNum := packet.seqNum % 256 ^ 8
        clOrdId :=
          if (toChars (packet.clOrdIdNum % 256 ^ 8)).length ≤ ProtocolParser.clOrdIdBufSize - 1 then
            toChars (packet.clOrdIdNum % 256 ^ 8)
          else []
        symbol := trimRight (packet.symbol.take 8 ++ List.replicate (8 - packet.symbol.length) 32)
        side := packet.side.toNat
        quantity := wrapInt32 (packet.quantity % 256 ^ 4 : Nat)
        price := wrapInt64 (packet.priceScaled % 256 ^ 8 : Nat) } := by
  have padded : (packet.symbol.take 8 ++ List.replicate (8 - packet.symbol.length) 32).length = 8 := by
    simp
    omega
  have seqNumField : field (packet.framed header timeInForce) 8 8 =
      littleEndianBytes 8 packet.seqNum := by
    simp only [framed, field_past, field_here, length_littleEndianBytes, length_header,
      Nat.reduceLeDiff, Nat.reduceSub]
  have idField : field (packet.framed header timeInForce) 16 8 =
      littleEndianBytes 8 packet.clOrdIdNum := by
    simp only [framed, field_past, field_here, length_littleEndianBytes, length_header,
      Nat.reduceLeDiff, Nat.reduceSub]
  have priceField : field (packet.framed header timeInForce) 24 8 =
      littleEndianBytes 8 packet.priceScaled := by
    simp only [framed, field_past, field_here, length_littleEndianBytes, length_header,
      Nat.reduceLeDiff, Nat.reduceSub]
  have quantityField : field (packet.framed header timeInForce) 32 4 =
      littleEndianBytes 4 packet.quantity := by
    simp only [framed, field_past, field_here, length_littleEndianBytes, length_header,
      Nat.reduceLeDiff, Nat.reduceSub]
  have sideField : field (packet.framed header timeInForce) 36 1 = [packet.side] := by
    simp only [framed, field_past, field_here, List.length_singleton, length_littleEndianBytes,
      length_header, Nat.reduceLeDiff, Nat.reduceSub]
  have symbolField : field (packet.framed header timeInForce) 37 8 =
      packet.symbol.take 8 ++ List.replicate (8 - packet.symbol.length) 32 := by
    simp only [framed, field_past, field_here, List.length_singleton, length_littleEndianBytes,
      length_header, padded, Nat.reduceLeDiff, Nat.reduceSub]
  simp only [ProtocolParser.parseSbe, seqNumField, idField, sideField, quantityField, priceField,
    symbolField, littleEndian_littleEndianBytes, List.headD_cons]

end SbeNewOrderSinglePacket

-- An order that all three encodings can carry.
structure WireOrder where
  seqNum : Nat
  side : Nat
  quantity : Nat
  priceScaled : Nat
  symbol : Bytes
  seqNum_range : 1 ≤ seqNum ∧ seqNum < 2 ^ 64
  side_valid : side = 1 ∨ side = 2
  quantity_lt : quantity < 2 ^ 31
  priceScaled_lt : priceScaled < 2 ^ 32
  symbol_length : 1 ≤ symbol.length ∧ symbol.length ≤ 6
  symbol_free : ∀ char, char ∈ symbol → char ≠ 1 ∧ char ≠ 124
  symbol_ends : ∀ char, symbol.getLast? = some char → char ≠ 32 ∧ char ≠ 0

instance : Inhabited WireOrder where
  default :=
    { seqNum := 1, side := 1, quantity := 1000, priceScaled := 35850000, symbol := ascii "VALE3"
      seqNum_range := by decide, side_valid := by decide, quantity_lt := by decide
      priceScaled_lt := by decide, symbol_length := by decide +kernel
      symbol_free := by decide +kernel, symbol_ends := by decide +kernel }

namespace WireOrder

variable (order : WireOrder)

def parsed (clOrdId : Bytes) : ParsedOrder :=
  { msgType := [68]
    msgTypeChar := 68
    clOrdId := clOrdId
    symbol := order.symbol
    side := order.side
    quantity := order.quantity
    price := order.priceScaled
    seqNum := order.seqNum }

def priceValue (priceScaled : Nat) : FixValue where
  bytes := priceText priceScaled
  free := by
    intro char written
    rcases List.mem_append.mp written with whole | rest
    next =>
      have digit := isDigit_toChars _ char whole
      exact ⟨ne_of_isDigit digit (by decide), ne_of_isDigit digit (by decide)⟩
    next =>
      rcases List.mem_cons.mp rest with rfl | fraction
      next => decide
      next =>
        obtain ⟨power, -, rfl⟩ := List.mem_map.mp fraction
        have digit := (digit_ofNat (Nat.mod_lt (priceScaled / power) (show 0 < 10 by decide))).1
        exact ⟨ne_of_isDigit digit (by decide), ne_of_isDigit digit (by decide)⟩

def fixText : Bytes :=
  templateText (.decimal order.seqNum) (producerOrderId order.seqNum)
    ⟨order.symbol, order.symbol_free⟩ (.decimal order.side) (.decimal order.quantity)
    (priceValue order.priceScaled)

def ouchPacket (clOrdId : Bytes) (long : clOrdId.length = 14) (timestampNs : Nat) :
    OuchEnterOrderPacket :=
  { seqNum := order.seqNum
    clOrdId := clOrdId
    side := if order.side = 1 then 66 else 83
    quantity := order.quantity
    priceScaled := order.priceScaled
    symbol := order.symbol ++ List.replicate (6 - order.symbol.length) 32
    timestampNs := timestampNs
    clOrdId_length := long
    symbol_length := by
      have bounds := order.symbol_length
      simp
      omega }

def sbePacket (clOrdIdNum : Nat) : SbeNewOrderSinglePacket :=
  { seqNum := order.seqNum
    clOrdIdNum := clOrdIdNum
    priceScaled := order.priceScaled
    quantity := order.quantity
    side := UInt8.ofNat order.side
    symbol := order.symbol }

theorem wrapInt32_quantity : wrapInt32 (order.quantity % 256 ^ 4 : Nat) = order.quantity := by
  have small := order.quantity_lt
  simp only [wrapInt32, Int.bmod]
  split_ifs <;> omega

theorem parse_ouch (clOrdId : Bytes) (long : clOrdId.length = 14) (timestampNs : Nat) :
    ProtocolParser.parseInPlace .ouch (some (order.ouchPacket clOrdId long timestampNs).bytes) =
      order.parsed (trimRight clOrdId) := by
  have seqNum : order.seqNum % 256 ^ 8 = order.seqNum := Nat.mod_eq_of_lt order.seqNum_range.2
  have price : order.priceScaled % 256 ^ 4 = order.priceScaled :=
    Nat.mod_eq_of_lt order.priceScaled_lt
  rw [OuchEnterOrderPacket.parseInPlace_bytes, OuchEnterOrderPacket.parseOuch_bytes]
  simp only [ouchPacket, parsed, seqNum, price, trimRight_padded order.symbol _ order.symbol_ends]
  rw [wrapInt32_quantity]
  rcases order.side_valid with side | side <;> simp [side]

theorem parse_sbe (clOrdIdNum : Nat) (header : SbeHeader) (timeInForce : UInt8) :
    ProtocolParser.parseInPlace .sbe
        (some ((order.sbePacket clOrdIdNum).framed header timeInForce)) =
      order.parsed (toChars (clOrdIdNum % 256 ^ 8)) := by
  have seqNum : order.seqNum % 256 ^ 8 = order.seqNum := Nat.mod_eq_of_lt order.seqNum_range.2
  have small := order.priceScaled_lt
  have price : order.priceScaled % 256 ^ 8 = order.priceScaled := by omega
  have wrapped : wrapInt64 (order.priceScaled : Int) = order.priceScaled := by
    rw [wrapInt64_of_inInt64]
    simp only [InInt64]
    omega
  have bounds := order.symbol_length
  have symbol : order.symbol.take 8 = order.symbol := List.take_of_length_le (by omega)
  rw [SbeNewOrderSinglePacket.parseInPlace_framed, SbeNewOrderSinglePacket.parseSbe_framed,
    if_pos (order.sbePacket clOrdIdNum).clOrdId_fits]
  simp only [sbePacket, parsed, seqNum, price, wrapped, symbol,
    trimRight_padded order.symbol _ order.symbol_ends]
  rw [wrapInt32_quantity]
  rcases order.side_valid with side | side <;> simp [side]

theorem length_fixText : 0 < order.fixText.length ∧ order.fixText.length < 2 ^ 32 := by
  have seqNum : (toChars order.seqNum).length ≤ 20 := by
    have range := order.seqNum_range
    exact length_toChars_le (by decide) (by omega)
  have side : (toChars order.side).length ≤ 1 := by
    have valid := order.side_valid
    exact length_toChars_le (by decide) (by omega)
  have quantity : (toChars order.quantity).length ≤ 10 := by
    have small := order.quantity_lt
    exact length_toChars_le (by decide) (by omega)
  have price : (priceText order.priceScaled).length ≤ 11 := by
    have small := order.priceScaled_lt
    have whole : (toChars (order.priceScaled / 1000000)).length ≤ 4 :=
      length_toChars_le (by decide) (by omega)
    simp only [priceText, sixDigits, List.length_append, List.length_cons, List.length_map,
      List.length_nil]
    omega
  have symbol := order.symbol_length
  delta fixText templateText
  simp [ascii, producerOrderId, FixValue.decimal, FixValue.append, FixValue.literal, priceValue]
  omega

theorem parse_fix :
    ProtocolParser.parseInPlace .fix (some order.fixText) =
      order.parsed (ascii "ORD_" ++ toChars order.seqNum) := by
  obtain ⟨nonempty, short⟩ := order.length_fixText
  have some : order.fixText.length ≠ 0 := by omega
  have whole : u32 order.fixText.length = order.fixText.length := Nat.mod_eq_of_lt short
  have side : fromCharsInt (toChars order.side) 0 = order.side := by
    have valid := order.side_valid
    have read := fromCharsInt_toChars order.side stops_nil (by simp only [InInt32]; omega) 0
    rwa [List.append_nil] at read
  have quantity : fromCharsInt (toChars order.quantity) 0 = order.quantity := by
    have small := order.quantity_lt
    have read := fromCharsInt_toChars order.quantity stops_nil (by simp only [InInt32]; omega) 0
    rwa [List.append_nil] at read
  simp only [ProtocolParser.parseInPlace, some, if_false, whole]
  rw [fixText, templateText_eq_serialize]
  refine (FixField.parse_eq_foldl _ true).trans ?_
  rw [foldl_templateFields]
  simp only [producerOrderId, FixValue.decimal, FixValue.append, FixValue.literal, priceValue, parsed,
    side, quantity, fromCharsUint64_toChars _ order.seqNum_range.2,
    FixParser.parseFixedPointPrice_priceText _ order.priceScaled_lt]

end WireOrder

end HftFixEngine.Protocol
