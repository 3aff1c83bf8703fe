import HftFixEngine.Engine.GaplessStream
import HftFixEngine.Scripts.FixLine
import HftFixEngine.Shared.Loop

set_option autoImplicit false

namespace HftFixEngine.Scripts

open Protocol Networking Engine Word

namespace FixMessages

-- In cents, as are the offsets.
def basePrices : Symbol → Nat
  | .petr4 => 3500
  | .vale3 => 6800
  | .itub4 => 3200
  | .bbdc4 => 1500
  | .abev3 => 1400
  | .wege3 => 4000

structure Draw where
  timestamp : Timestamp
  sym : Symbol
  priceOffset : Int
  lots : Nat
  buyTag : Nat
  sellTag : Nat
  priceOffset_mem : priceOffset ∈ [-20, -10, 0, 10, (20 : Int)]
  lots_range : 1 ≤ lots ∧ lots ≤ 10
  buyTag_range : 1000 ≤ buyTag ∧ buyTag ≤ 9999
  sellTag_range : 1000 ≤ sellTag ∧ sellTag ≤ 9999

namespace Draw

variable (draw : Draw) (i : Nat)

def price : Nat := (basePrices draw.sym + draw.priceOffset).toNat

def qty : Nat := draw.lots * 100

def fatFingerLine : FixLine where
  seqNum := i
  timestamp := draw.timestamp
  clOrdId := .append (.literal "ORD_RISK_QTY_") (.decimal i)
  symbol := Symbol.petr4.name
  side := 1
  quantity := 100000
  cents := 3550

def collarLine : FixLine where
  seqNum := i
  timestamp := draw.timestamp
  clOrdId := .append (.literal "ORD_RISK_PRICE_") (.decimal i)
  symbol := Symbol.petr4.name
  side := 1
  quantity := 500
  cents := 4500

def buyLine : FixLine where
  seqNum := i
  timestamp := draw.timestamp
  clOrdId :=
    .append (.literal "BUY_") (.append (.decimal i) (.append (.literal "_") (.decimal draw.buyTag)))
  symbol := draw.sym.name
  side := 1
  quantity := draw.qty
  cents := draw.price

def sellLine : FixLine where
  seqNum := i
  timestamp := draw.timestamp
  clOrdId :=
    .append (.literal "SELL_") (.append (.decimal i) (.append (.literal "_") (.decimal draw.sellTag)))
  symbol := draw.sym.name
  side := 2
  quantity := draw.qty
  cents := draw.price

end Draw

structure Generation where
  rounds : Nat := 0
  seqCounter : Nat := 1
  batch : List FixLine := []
  written : Bytes := []

namespace Generation

def going (count : Nat) (generation : Generation) : Bool := generation.seqCounter ≤ count

def write (generation : Generation) : Generation :=
  { generation with
    batch := []
    written := generation.written ++ generation.batch.flatMap FixLine.broken }

def append (generation : Generation) (line : FixLine) : Generation :=
  { generation with
    seqCounter := generation.seqCounter + 1
    batch := generation.batch ++ [line] }

-- The jump over five numbers is the gap scenario. The `break` leaves a counter that ends the loop.
def pair (count batchSize : Nat) (draw : Draw) (generation : Generation) : Generation :=
  let seqCounter :=
    if generation.seqCounter = 200 then generation.seqCounter + 5 else generation.seqCounter
  let bought := { generation with seqCounter }.append (draw.buyLine seqCounter)
  if bought.seqCounter > count then bought
  else
    let sold := bought.append (draw.sellLine bought.seqCounter)
    if sold.batch.length ≥ batchSize then sold.write else sold

def round (count batchSize : Nat) (draws : Nat → Draw) (generation : Generation) : Generation :=
  let i := generation.seqCounter
  let draw := draws generation.rounds
  let next := { generation with rounds := generation.rounds + 1 }
  if i % 5000 = 150 then next.append (draw.fatFingerLine i)
  else if i % 5000 = 350 then next.append (draw.collarLine i)
  else next.pair count batchSize draw

end Generation

def lastGeneration (count batchSize : Nat) (draws : Nat → Draw) : Generation :=
  Loop.run (Generation.going count) (Generation.round count batchSize draws) count {}

def generateFixMessages (count batchSize : Nat) (draws : Nat → Draw) : Bytes :=
  let last := lastGeneration count batchSize draws
  (if last.batch.isEmpty then last else last.write).written

def standardLine (draws : Nat → Draw) (i : Nat) : FixLine :=
  let draw := draws ((i - 1) / 2)
  if i % 2 = 1 then draw.buyLine i else draw.sellLine i

namespace Generation

variable (count batchSize : Nat) (draws : Nat → Draw)

def content (generation : Generation) : Bytes :=
  generation.written ++ generation.batch.flatMap FixLine.broken

structure Standard (generation : Generation) : Prop where
  odd : generation.seqCounter ≤ count → generation.seqCounter = 2 * generation.rounds + 1
  most : generation.seqCounter ≤ count + 1
  content : generation.content =
    (List.range' 1 (generation.seqCounter - 1)).flatMap fun i => (standardLine draws i).broken

variable {count batchSize draws} {generation : Generation}

theorem content_append (line : FixLine) :
    (generation.append line).content = generation.content ++ line.broken := by
  simp [append, content]

theorem content_write : generation.write.content = generation.content := by
  simp [write, content]

theorem standardLine_odd (draws : Nat → Draw) (rounds : Nat) :
    standardLine draws (2 * rounds + 1) = (draws rounds).buyLine (2 * rounds + 1) := by
  have round : (2 * rounds + 1 - 1) / 2 = rounds := by omega
  have odd : (2 * rounds + 1) % 2 = 1 := by omega
  rw [standardLine, round]
  exact if_pos odd

theorem standardLine_even (draws : Nat → Draw) (rounds : Nat) :
    standardLine draws (2 * rounds + 2) = (draws rounds).sellLine (2 * rounds + 2) := by
  have round : (2 * rounds + 2 - 1) / 2 = rounds := by omega
  have even : ¬ (2 * rounds + 2) % 2 = 1 := by omega
  rw [standardLine, round]
  exact if_neg even

theorem Standard.append (standard : generation.content =
      (List.range' 1 (generation.seqCounter - 1)).flatMap fun i => (standardLine draws i).broken)
    (positive : 0 < generation.seqCounter) :
    (generation.append (standardLine draws generation.seqCounter)).content =
      (List.range' 1 generation.seqCounter).flatMap fun i => (standardLine draws i).broken := by
  obtain ⟨numbers, next⟩ : ∃ numbers, generation.seqCounter = numbers + 1 :=
    ⟨generation.seqCounter - 1, by omega⟩
  rw [content_append, standard, next, Nat.add_sub_cancel, List.range'_concat, List.flatMap_append]
  simp [Nat.add_comm]

theorem Standard.round (standard : Standard count draws generation)
    (going : generation.going count = true) :
    Standard count draws (generation.round count batchSize draws) := by
  have more : generation.seqCounter ≤ count := by simpa [Generation.going] using going
  have odd := standard.odd more
  have bought := Standard.append standard.content (by omega)
  rw [odd, standardLine_odd] at bought
  -- None of the scenarios has an odd number.
  have noFatFinger : ¬ (2 * generation.rounds + 1) % 5000 = 150 := by omega
  have noCollar : ¬ (2 * generation.rounds + 1) % 5000 = 350 := by omega
  have noGap : ¬ 2 * generation.rounds + 1 = 200 := by omega
  simp only [Generation.round, pair, odd, if_neg noFatFinger, if_neg noCollar, if_neg noGap]
  generalize kept : ({ generation with
    rounds := generation.rounds + 1, seqCounter := 2 * generation.rounds + 1 } : Generation).append
      ((draws generation.rounds).buyLine (2 * generation.rounds + 1)) = first
  have counter : first.seqCounter = 2 * generation.rounds + 2 := kept ▸ rfl
  have rounds : first.rounds = generation.rounds + 1 := kept ▸ rfl
  have content : first.content =
      (List.range' 1 (first.seqCounter - 1)).flatMap fun i => (standardLine draws i).broken := by
    rw [counter]
    exact kept ▸ bought
  split
  next last =>
    exact
      { odd := by omega
        most := by omega
        content := content }
  next =>
    have sold := Standard.append content (by omega)
    rw [counter, standardLine_even] at sold
    generalize second : first.append
      ((draws generation.rounds).sellLine first.seqCounter) = both
    have counterBoth : both.seqCounter = 2 * generation.rounds + 3 := by
      rw [← second]
      exact congrArg (· + 1) counter
    have roundsBoth : both.rounds = generation.rounds + 1 := second ▸ rounds
    have whole : Standard count draws both := by
      constructor
      case odd => omega
      case most => omega
      case content =>
        rw [counterBoth, ← second, counter]
        exact sold
    split
    next => exact ⟨whole.odd, whole.most, content_write.trans whole.content⟩
    next => exact whole

theorem pair_seqCounter (draw : Draw) :
    generation.seqCounter < (generation.pair count batchSize draw).seqCounter := by
  have written (generation : Generation) : generation.write.seqCounter = generation.seqCounter := rfl
  have appended (generation : Generation) (line : FixLine) :
      (generation.append line).seqCounter = generation.seqCounter + 1 := rfl
  simp only [pair, apply_ite Generation.seqCounter, appended, written, ite_self]
  split_ifs <;> omega

theorem round_seqCounter :
    generation.seqCounter < (generation.round count batchSize draws).seqCounter := by
  unfold Generation.round
  dsimp only
  split
  next => exact Nat.lt_succ_self _
  next =>
    split
    next => exact Nat.lt_succ_self _
    next => exact @pair_seqCounter _ _ { generation with rounds := generation.rounds + 1 } _

end Generation

theorem generateFixMessages_eq (count batchSize : Nat) (draws : Nat → Draw) :
    generateFixMessages count batchSize draws =
      ((List.range' 1 count).map (standardLine draws)).flatMap FixLine.broken := by
  have standard : Generation.Standard count draws (lastGeneration count batchSize draws) := by
    refine Loop.run_invariant (Generation.Standard count draws) ?_ count ?_
    next => exact fun generation standard going => standard.round going
    next => exact ⟨fun _ => rfl, by simp, rfl⟩
  have ended : Generation.going count (lastGeneration count batchSize draws) = false := by
    refine Loop.run_exits (fun _ => True) (fun generation => count + 1 - generation.seqCounter)
      (fun _ _ _ => trivial) ?_ count trivial (by simp)
    intro generation _ going
    have forward : generation.seqCounter < (generation.round count batchSize draws).seqCounter :=
      Generation.round_seqCounter
    have more : generation.seqCounter ≤ count := by simpa [Generation.going] using going
    omega
  have counter : (lastGeneration count batchSize draws).seqCounter = count + 1 := by
    have most := standard.most
    have past : ¬ (lastGeneration count batchSize draws).seqCounter ≤ count := by
      simpa [Generation.going] using ended
    omega
  have content := standard.content
  rw [counter, Nat.add_sub_cancel] at content
  rw [List.flatMap_map]
  refine Eq.trans ?_ content
  simp only [generateFixMessages, Generation.content]
  split
  next empty => simp [List.isEmpty_iff.mp empty]
  next => rfl

def Draw.insideCollar (draw : Draw) : Bool :=
  match draw.sym with
  | .petr4 => true
  | .itub4 => true
  | .wege3 => decide (draw.priceOffset ≤ 0)
  | _ => false

def standardOrder (draws : Nat → Draw) (i : Nat) : ParsedOrder where
  msgType := [68]
  msgTypeChar := 68
  symbol := (draws ((i - 1) / 2)).sym.name.bytes
  side := if i % 2 = 1 then 1 else 2
  quantity := (draws ((i - 1) / 2)).qty
  price := ((draws ((i - 1) / 2)).price * 10000 : Nat)
  seqNum := i

section Read

variable (draws : Nat → Draw) (i : Nat)

theorem Draw.price_range (draw : Draw) : 1380 ≤ draw.price ∧ draw.price ≤ 6820 := by
  have offset := draw.priceOffset_mem
  simp only [List.mem_cons, List.not_mem_nil, or_false] at offset
  cases sym : draw.sym <;> simp only [Draw.price, sym, basePrices] <;> omega

theorem Draw.collar_iff (draw : Draw) :
    (3000 ≤ draw.price ∧ draw.price ≤ 4000) ↔ draw.insideCollar = true := by
  have offset := draw.priceOffset_mem
  simp only [List.mem_cons, List.not_mem_nil, or_false] at offset
  cases sym : draw.sym <;> simp [Draw.price, Draw.insideCollar, sym, basePrices] <;> omega

theorem standardOrder_withinLimits :
    WithinLimits (standardOrder draws i) ↔ (draws ((i - 1) / 2)).insideCollar = true := by
  let draw := draws ((i - 1) / 2)
  have price := draw.price_range
  have lots := draw.lots_range
  have quantity : draw.qty = draw.lots * 100 := rfl
  rw [← Draw.collar_iff]
  constructor
  case mp =>
    rintro ⟨-, -, least, most, -⟩
    simp only [standardOrder] at least most
    omega
  case mpr =>
    rintro ⟨least, most⟩
    constructor
    case notional_lt =>
      have amount : ((draws ((i - 1) / 2)).qty : Int) ≤ 1000 := by
        simp only [draw] at quantity lots
        omega
      have value : (((draws ((i - 1) / 2)).price * 10000 : Nat) : Int) ≤ 40000000 := by omega
      have product := Int.mul_le_mul amount value (by omega) (by decide)
      simp only [standardOrder]
      omega
    all_goals
      simp only [standardOrder, draw] at *
      omega

theorem standardLine_ordinary (range : i < 2 ^ 64) : (standardLine draws i).Ordinary := by
  have price := (draws ((i - 1) / 2)).price_range.2
  have lots := (draws ((i - 1) / 2)).lots_range.2
  have buyTag := (draws ((i - 1) / 2)).buyTag_range.2
  have sellTag := (draws ((i - 1) / 2)).sellTag_range.2
  have digits : (toChars i).length ≤ 20 := length_toChars_le (by decide) (by omega)
  have buy : (toChars (draws ((i - 1) / 2)).buyTag).length ≤ 4 :=
    length_toChars_le (by decide) (by omega)
  have sell : (toChars (draws ((i - 1) / 2)).sellTag).length ≤ 4 :=
    length_toChars_le (by decide) (by omega)
  unfold standardLine
  dsimp only
  split
  all_goals
    constructor
    case seqNum_lt => exact range
    case side_lt => simp [Draw.buyLine, Draw.sellLine]
    case quantity_lt => simp only [Draw.buyLine, Draw.sellLine, Draw.qty]; omega
    case cents_lt => simp only [Draw.buyLine, Draw.sellLine]; omega
    case clOrdId_short =>
      simp [Draw.buyLine, Draw.sellLine, Token.append, Token.literal, Token.decimal, ascii]
      omega
    case symbol_short => simp [Draw.buyLine, Draw.sellLine, Symbol.length_name]

theorem parse_standardLine (range : i < 2 ^ 64) :
    Exchange.bareOrder (ProtocolParser.parseInPlace .fix (some (standardLine draws i).text)) =
      standardOrder draws i := by
  rw [FixLine.parse_text (standardLine_ordinary draws i range)]
  unfold standardLine standardOrder
  dsimp only
  split <;> rfl

theorem gapless_standard (count : Nat) :
    Gapless ((List.range' 1 count).map (standardOrder draws)) where
  numbered := by
    rw [List.map_map, List.length_map, List.length_range']
    exact List.map_id _
  new := by
    intro order member
    obtain ⟨i, -, rfl⟩ := List.mem_map.mp member
    rfl
  near := by
    intro order member
    obtain ⟨i, -, rfl⟩ := List.mem_map.mp member
    have price : (standardOrder draws i).price = ((draws ((i - 1) / 2)).price * 10000 : Nat) := rfl
    rw [farBelow, price, decide_eq_false_iff_not]
    simp only [referencePrice]
    omega

end Read

theorem scenarios_never_come (count batchSize : Nat) (draws : Nat → Draw) (file : Dataset)
    (content : file.content = generateFixMessages count batchSize draws) (few : count < 2 ^ 32)
    (packets : List Engine.Packet)
    (carried : packets.map Engine.Packet.payload = (UdpFixProducer.loadedMessages file).map some) :
    let engine := HftOrderBookEngine.run .fix packets
    let inside := fun i => (draws ((i - 1) / 2)).insideCollar
    EngineLauncher.totalMessages file = count ∧
      (packets.map (Engine.Packet.order .fix)).map Exchange.bareOrder =
        (List.range' 1 count).map (standardOrder draws) ∧
      engine.submitted.map Exchange.bareOrder =
        ((List.range' 1 count).filter inside).map (standardOrder draws) ∧
      engine.telemetry.messagesProcessed = count ∧
      engine.telemetry.riskRejected = (List.range' 1 count).countP (fun i => !inside i) ∧
      engine.ingress.gapDetector = { expectedSeq := count + 1 } ∧
      ∀ event ∈ engine.log, event.feedAlarm = false := by
  intro engine inside
  rw [generateFixMessages_eq] at content
  obtain ⟨loaded, total⟩ := loadedMessages_broken file _ content
  rw [List.length_map, List.length_range'] at total
  rw [loaded] at carried
  have read : (packets.map (Engine.Packet.order .fix)).map Exchange.bareOrder =
      (List.range' 1 count).map (standardOrder draws) := by
    have parsed : (packets.map (Engine.Packet.order .fix)).map Exchange.bareOrder =
        (packets.map Engine.Packet.payload).map fun payload =>
          Exchange.bareOrder (ProtocolParser.parseInPlace .fix payload) := by
      rw [List.map_map, List.map_map]
      rfl
    rw [parsed, carried, List.map_map, List.map_map, List.map_map]
    apply List.map_congr_left
    intro i member
    have range := (List.mem_range'_1.mp member).2
    exact parse_standardLine draws i (by omega)
  have length : ((List.range' 1 count).map (standardOrder draws)).length = count := by
    rw [List.length_map, List.length_range']
  obtain ⟨submitted, processed, -, rejected, detector, log⟩ :=
    gapless_run_meant .fix packets read (gapless_standard draws count) (by rwa [length])
  rw [length] at processed detector
  have gate : (fun i => decide (WithinLimits (standardOrder draws i))) = inside := by
    funext i
    simp only [standardOrder_withinLimits, inside, Bool.decide_eq_true]
  refine ⟨total, read, ?_, processed, ?_, detector, log⟩
  next =>
    rw [submitted, List.filter_map, ← gate]
    rfl
  next =>
    rw [rejected, List.countP_map, ← gate]
    rfl

def openingDraw : Draw where
  timestamp := .opening
  sym := .wege3
  priceOffset := 10
  lots := 3
  buyTag := 1000
  sellTag := 9999
  priceOffset_mem := by decide
  lots_range := by decide
  buyTag_range := by decide
  sellTag_range := by decide

def twoDraws (rounds : Nat) : Draw :=
  if rounds = 0 then openingDraw else { openingDraw with sym := .petr4 }

def threeMessages : Dataset where
  path := ascii "fix_messages.data"
  content := generateFixMessages 3 10000 twoDraws
  named := by decide +kernel
  long := by decide +kernel

theorem scenarios_never_come_three :
    let packets := (UdpFixProducer.loadedMessages threeMessages).map fun message =>
      ({ payload := some message, latencyNs := 0, currentTs := 0 } : Engine.Packet)
    let engine := HftOrderBookEngine.run .fix packets
    EngineLauncher.totalMessages threeMessages = 3 ∧
      engine.submitted.map Exchange.bareOrder = [standardOrder twoDraws 3] ∧
      engine.telemetry.riskRejected = 2 := by
  intro packets engine
  have carried : packets.map Engine.Packet.payload =
      (UdpFixProducer.loadedMessages threeMessages).map some := by
    simp only [packets, List.map_map]
    rfl
  obtain ⟨total, -, submitted, -, rejected, -, -⟩ :=
    scenarios_never_come 3 10000 twoDraws threeMessages rfl (by decide) packets carried
  refine ⟨total, submitted.trans (by decide +kernel), ?_⟩
  rw [rejected]
  decide +kernel

end FixMessages

end HftFixEngine.Scripts
