import HftFixEngine.Engine.EncodedStreams
import HftFixEngine.Scripts.GenerateMultiProtocolMessages

set_option autoImplicit false

namespace HftFixEngine.Scripts.MultiProtocol

open Protocol Networking Engine Word

namespace Draw

variable (draw : Draw) (i : Nat)

theorem sideVal_valid : draw.sideVal i = 1 ∨ draw.sideVal i = 2 := by
  unfold sideVal
  split
  next => exact .inl rfl
  next => split <;> simp

theorem qty_le : draw.qty ≤ 100000 := by
  have lots := draw.lots_range.2
  unfold qty
  split
  next => split <;> omega
  next => omega

theorem basePrice_range (sym : Symbol) : 3480 ≤ basePrice sym ∧ basePrice sym ≤ 3530 := by
  cases sym <;> decide

theorem priceOffset_range : -40 ≤ draw.priceOffset ∧ draw.priceOffset ≤ 40 := by
  have member := draw.priceOffset_mem
  simp only [List.mem_cons, List.not_mem_nil, or_false] at member
  omega

theorem cents_range : 3440 ≤ draw.cents ∧ draw.cents ≤ 4530 := by
  have base := basePrice_range draw.sym
  have offset := draw.priceOffset_range
  unfold cents
  split
  next => split <;> omega
  next => omega

def order : ParsedOrder where
  msgType := [68]
  msgTypeChar := 68
  symbol := draw.sym.name.bytes
  side := draw.sideVal i
  quantity := draw.qty
  price := draw.priceScaled
  seqNum := i

theorem withinLimits_iff : WithinLimits (draw.order i) ↔ draw.isRiskCase = false := by
  have base := basePrice_range draw.sym
  have offset := draw.priceOffset_range
  have lots := draw.lots_range
  cases risk : draw.isRiskCase with
  | true =>
    simp only [Bool.true_eq_false, iff_false]
    rintro ⟨-, quantity, -, price, -⟩
    simp only [order, qty, priceScaled, cents, risk, if_true] at quantity price
    cases finger : draw.fatFinger with
    | true => simp [finger] at quantity
    | false =>
      simp only [finger, Bool.false_eq_true, if_false] at price
      omega
  | false =>
    simp only [iff_true]
    constructor
    case notional_lt =>
      simp only [order, qty, priceScaled, cents, risk, Bool.false_eq_true, if_false]
      have value : ((basePrice draw.sym + draw.priceOffset).toNat : Int) ≤ 3570 := by omega
      have amount : ((draw.lots * 100 : Nat) : Int) ≤ 5000 := by omega
      have product := Int.mul_le_mul amount (Int.mul_le_mul_of_nonneg_right value
        (show (0 : Int) ≤ 10000 by decide)) (by omega) (by decide)
      push_cast at product ⊢
      omega
    all_goals
      simp only [order, qty, priceScaled, cents, risk, Bool.false_eq_true, if_false]
      omega

theorem near : farBelow (draw.order i) = false := by
  have price : (draw.order i).price = (draw.priceScaled : Int) := rfl
  rw [farBelow, price, decide_eq_false_iff_not]
  simp only [referencePrice]
  omega

def wire (range : 1 ≤ i ∧ i < 2 ^ 64) : WireOrder where
  seqNum := i
  side := draw.sideVal i
  quantity := draw.qty
  priceScaled := draw.priceScaled
  symbol := draw.sym.name.bytes
  seqNum_range := range
  side_valid := draw.sideVal_valid i
  quantity_lt := Nat.lt_of_le_of_lt draw.qty_le (by decide)
  priceScaled_lt := by
    have cents := draw.cents_range.2
    unfold priceScaled
    omega
  symbol_length := by simp [draw.sym.length_name]
  symbol_free := draw.sym.name.value.free
  symbol_ends := by
    intro char last
    obtain ⟨above, -⟩ := draw.sym.name.printable char (List.mem_of_getLast? last)
    constructor
    next => rintro rfl; exact absurd above (by decide)
    next => rintro rfl; exact absurd above (by decide)

end Draw

def payload (type : ProtocolType) (i : Nat) (draw : Draw) : Bytes :=
  match type with
  | .fix => (fixLine i draw).text
  | _ => message type i draw

theorem ouchPacket_eq (i : Nat) (draw : Draw) (range : 1 ≤ i ∧ i < 2 ^ 64) :
    ouchPacket i draw = (draw.wire i range).ouchPacket (packString 14 (ljust 14 (clIdStr i).bytes))
      (length_packString 14 _) draw.timestampNs := by
  have symbol := @packString_ljust 6 draw.sym.name.bytes (by simp [draw.sym.length_name])
  simp only [ouchPacket, WireOrder.ouchPacket, Draw.wire, symbol]
  rfl

theorem framed_eq (i : Nat) (draw : Draw) (range : 1 ≤ i ∧ i < 2 ^ 64) :
    (sbePacket i draw).framed sbeHeader 0 = ((draw.wire i range).sbePacket i).framed sbeHeader 0 := by
  have length := draw.sym.length_name
  have symbol := @packString_ljust 8 draw.sym.name.bytes (by simp [length])
  have whole : draw.sym.name.bytes.take 8 = draw.sym.name.bytes :=
    List.take_of_length_le (by simp [length])
  have packed : (packString 8 (ljust 8 draw.sym.name.bytes)).take 8 =
      draw.sym.name.bytes ++ List.replicate (8 - draw.sym.name.bytes.length) 32 := by
    rw [List.take_of_length_le (length_packString 8 _).le, symbol]
  simp only [SbeNewOrderSinglePacket.framed, sbePacket, WireOrder.sbePacket, Draw.wire, packed, whole,
    length_packString, Nat.sub_self, List.replicate_zero, List.append_nil]

theorem fixLine_ordinary (i : Nat) (draw : Draw) (range : i < 2 ^ 64) : (fixLine i draw).Ordinary := by
  have side := draw.sideVal_valid i
  have cents := draw.cents_range.2
  constructor
  case seqNum_lt => exact range
  case side_lt => simp only [fixLine]; omega
  case quantity_lt => exact Nat.lt_of_le_of_lt draw.qty_le (by decide)
  case cents_lt => simp only [fixLine]; omega
  case clOrdId_short =>
    have digits : (toChars i).length ≤ 20 := length_toChars_le (by decide) (by omega)
    simp [fixLine, clIdStr, Token.append, Token.literal, Token.decimal, ascii]
    omega
  case symbol_short => simp [fixLine, draw.sym.length_name]

theorem length_payload (type : ProtocolType) (i : Nat) (draw : Draw) (range : 1 ≤ i ∧ i < 2 ^ 64) :
    (payload type i draw).length ≤ 512 := by
  cases type with
  | ouch =>
    simp only [payload, message]
    exact Nat.le_trans (Nat.le_of_eq (ouchPacket i draw).length_bytes) (by decide)
  | sbe =>
    simp only [payload, message]
    exact Nat.le_trans (Nat.le_of_eq ((sbePacket i draw).length_framed sbeHeader 0)) (by decide)
  | fix => exact FixLine.length_text (fixLine_ordinary i draw range.2)

theorem parse_payload (type : ProtocolType) (i : Nat) (draw : Draw) (range : 1 ≤ i ∧ i < 2 ^ 64) :
    Exchange.bareOrder (ProtocolParser.parseInPlace type (some (payload type i draw))) =
      draw.order i := by
  cases type with
  | ouch =>
    simp only [payload, message]
    rw [ouchPacket_eq i draw range, WireOrder.parse_ouch]
    rfl
  | sbe =>
    simp only [payload, message]
    rw [framed_eq i draw range, WireOrder.parse_sbe]
    rfl
  | fix =>
    simp only [payload]
    rw [FixLine.parse_text (fixLine_ordinary i draw range.2)]
    rfl

-- A file that does not begin with an '8' is binary by its first byte or by its name.
theorem isBinary_cons {file : Dataset} {byte : UInt8} {rest : Bytes}
    (content : file.content = byte :: rest) (other : byte ≠ 56) :
    UdpFixProducer.isBinary file = ((ascii ".data").isSuffixOf file.path || byte == 79) := by
  have head : file.headView = byte :: rest.take 7 := by rw [Dataset.headView, content]; rfl
  have different : (56 == byte) = false := by simpa using other.symm
  have named : ascii "8=FIX" = 56 :: ascii "=FIX" ∧ ascii "8=" = 56 :: ascii "=" := by decide +kernel
  simp [UdpFixProducer.isBinary, head, named, List.isPrefixOf_cons_cons, different]

def packed (type : ProtocolType) (i : Nat) (draw : Draw) : PackedPacket :=
  match type with
  | .ouch => .ouch (ouchPacket i draw)
  | _ => .sbe (sbePacket i draw) sbeHeader 0

theorem loadedMessages_packed {type : ProtocolType} {file : Dataset} {draws : List Draw}
    (binary : UdpFixProducer.isBinary file = true)
    (content : file.content = (numbered (fun i draw => (packed type i draw).bytes) draws).flatten) :
    UdpFixProducer.loadedMessages file = numbered (fun i draw => (packed type i draw).bytes) draws ∧
      EngineLauncher.totalMessages file = draws.length := by
  have holds : file.Holds (numbered (packed type) draws) [] := by
    rw [Dataset.Holds, content, map_numbered, List.append_nil]
  have whole := Dataset.loadedMessages_whole binary holds
  rw [map_numbered] at whole
  exact ⟨whole, by rw [file.totalMessages_binary binary, whole, length_numbered]⟩

theorem loadedMessages_generated (type : ProtocolType) (file : Dataset) (draws : List Draw)
    (content : file.content = generateMessages type draws)
    (named : type = .sbe → (ascii ".data").isSuffixOf file.path = true) :
    UdpFixProducer.loadedMessages file = numbered (payload type) draws ∧
      EngineLauncher.totalMessages file = draws.length := by
  rw [generateMessages_eq] at content
  obtain ⟨draw, others, rfl⟩ : ∃ draw others, draws = draw :: others := by
    cases draws with
    | nil =>
      have long := file.long
      simp [content, numbered] at long
    | cons draw others => exact ⟨draw, others, rfl⟩
  cases type with
  | fix =>
    obtain ⟨loaded, total⟩ := loadedMessages_broken file (numbered fixLine (draw :: others)) (by
      rw [content, List.flatMap_def, map_numbered]
      rfl)
    rw [map_numbered] at loaded
    rw [length_numbered] at total
    exact ⟨loaded, total⟩
  | ouch =>
    have binary : UdpFixProducer.isBinary file = true := by
      rw [isBinary_cons content (show (79 : UInt8) ≠ 56 by decide)]
      simp [ouchPacket]
    exact @loadedMessages_packed .ouch _ _ binary content
  | sbe =>
    have binary : UdpFixProducer.isBinary file = true := by
      rw [isBinary_cons content (by decide), named rfl]
      rfl
    exact @loadedMessages_packed .sbe _ _ binary content

theorem orders_carried {type : ProtocolType} {draws : List Draw} (few : draws.length < 2 ^ 32)
    {packets : List Engine.Packet}
    (carried : packets.map Engine.Packet.payload = (numbered (payload type) draws).map some) :
    (packets.map (Engine.Packet.order type)).map Exchange.bareOrder =
      numbered (fun i draw => draw.order i) draws := by
  have read : (packets.map (Engine.Packet.order type)).map Exchange.bareOrder =
      (packets.map Engine.Packet.payload).map fun payload =>
        Exchange.bareOrder (ProtocolParser.parseInPlace type payload) := by
    rw [List.map_map, List.map_map]
    rfl
  rw [read, carried, map_numbered, map_numbered, numbered, numbered]
  apply List.map_congr_left
  rintro ⟨draw, i⟩ member
  obtain ⟨above, below, -⟩ := List.mem_zipIdx member
  exact parse_payload type i draw (by omega)

theorem numbered_seqNum (draws : List Draw) :
    (numbered (fun i draw => draw.order i) draws).map ParsedOrder.seqNum =
      List.range' 1 draws.length := by
  rw [map_numbered, numbered]
  exact List.zipIdx_map_snd 1 draws

theorem gapless_numbered (draws : List Draw) :
    Gapless (numbered (fun i draw => draw.order i) draws) where
  numbered := by rw [numbered_seqNum, length_numbered]
  new := by
    intro order member
    obtain ⟨drawn, -, rfl⟩ := List.mem_map.mp member
    rfl
  near := by
    intro order member
    obtain ⟨drawn, -, rfl⟩ := List.mem_map.mp member
    exact drawn.1.near drawn.2

structure Screened (engine : HftOrderBookEngine) (draws : List Draw) : Prop where
  submitted : engine.submitted.map Exchange.bareOrder =
    ((draws.zipIdx 1).filter fun drawn => !drawn.1.isRiskCase).map fun drawn => drawn.1.order drawn.2
  processed : engine.telemetry.messagesProcessed = draws.length
  approved : engine.telemetry.riskApproved = draws.countP fun draw => !draw.isRiskCase
  rejected : engine.telemetry.riskRejected = draws.countP Draw.isRiskCase
  detector : engine.ingress.gapDetector = { expectedSeq := draws.length + 1 }
  log : ∀ event ∈ engine.log, event.feedAlarm = false

theorem screened_of_carried {type : ProtocolType} {draws : List Draw} (few : draws.length < 2 ^ 32)
    {packets : List Engine.Packet}
    (carried : packets.map Engine.Packet.payload = (numbered (payload type) draws).map some) :
    Screened (HftOrderBookEngine.run type packets) draws := by
  have meant := orders_carried few carried
  have gapless := gapless_numbered draws
  obtain ⟨submitted, processed, approved, rejected, detector, log⟩ :=
    gapless_run_meant type packets meant gapless (by rwa [length_numbered])
  rw [length_numbered] at processed detector
  -- What the gate thinks of an order is what the draw says.
  have gate : (fun drawn : Draw × Nat => decide (WithinLimits (drawn.1.order drawn.2))) =
      fun drawn => !drawn.1.isRiskCase := by
    funext drawn
    simp only [Draw.withinLimits_iff]
    cases drawn.1.isRiskCase <;> rfl
  have counted (keep : Bool → Bool) :
      (numbered (fun i draw => draw.order i) draws).countP
          (fun order => keep (decide (WithinLimits order))) =
        draws.countP fun draw => keep (!draw.isRiskCase) := by
    have drawn := List.countP_map (p := fun draw : Draw => keep (!draw.isRiskCase)) (f := Prod.fst)
      (l := draws.zipIdx 1)
    rw [List.zipIdx_map_fst] at drawn
    rw [numbered, List.countP_map, drawn]
    exact congrArg (fun gate => List.countP (fun drawn => keep (gate drawn)) _) gate
  refine ⟨?_, processed, approved.trans (counted id), ?_, detector, log⟩
  next =>
    rw [submitted, numbered, List.filter_map, ← gate]
    rfl
  next =>
    refine rejected.trans ((counted not).trans ?_)
    simp only [Bool.not_not]

def plainDraw : Draw where
  isRiskCase := false
  sym := .vale3
  fatFinger := false
  priceOffset := 40
  lots := 50
  timestampNs := 1752775200000000000
  tsStr := .opening
  priceOffset_mem := by decide
  lots_range := by decide

def collarDraw : Draw := { plainDraw with isRiskCase := true }

def twoMessages : Dataset where
  path := ascii "messages.data"
  content := generateMessages .sbe [plainDraw, collarDraw]
  named := by decide +kernel
  long := by decide +kernel

end HftFixEngine.Scripts.MultiProtocol
