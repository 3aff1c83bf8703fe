import HftFixEngine.Networking.TextDataset
import HftFixEngine.Protocol.FixFields

set_option autoImplicit false

namespace HftFixEngine.Scripts

open Protocol Networking Word Scan Words

structure Token where
  bytes : Bytes
  printable : ∀ char, char ∈ bytes → 32 < char ∧ char < 124

namespace Token

def literal (text : String)
    (printable : ∀ char, char ∈ ascii text → 32 < char ∧ char < 124 := by decide +kernel) :
    Token :=
  ⟨ascii text, printable⟩

theorem printable_digit {char : UInt8} (digit : isDigit char = true) : 32 < char ∧ char < 124 := by
  simp only [isDigit, Bool.and_eq_true, decide_eq_true_eq, UInt8.le_iff_toNat_le,
    UInt8.toNat_ofNat] at digit
  simp only [UInt8.lt_iff_toNat_lt, UInt8.toNat_ofNat]
  omega

def decimal (number : Nat) : Token where
  bytes := toChars number
  printable := fun char written => printable_digit (isDigit_toChars number char written)

def append (token other : Token) : Token where
  bytes := token.bytes ++ other.bytes
  printable := by
    intro char member
    rcases List.mem_append.mp member with left | right
    next => exact token.printable char left
    next => exact other.printable char right

-- `{price:.2f}`
def price (cents : Nat) : Token where
  bytes := toChars (cents / 100) ++ 46 :: FixParser.lastDigits cents 2
  printable := by
    intro char member
    rcases List.mem_append.mp member with whole | rest
    next => exact printable_digit (isDigit_toChars _ char whole)
    next =>
      simp only [FixParser.lastDigits, List.mem_cons, List.not_mem_nil, or_false] at rest
      obtain rfl | rfl | rfl := rest
      next => decide
      next => exact printable_digit (digit_ofNat (Nat.mod_lt _ (by decide))).1
      next => exact printable_digit (digit_ofNat (Nat.mod_lt _ (by decide))).1

def value (token : Token) : FixValue where
  bytes := token.bytes
  free := by
    intro char member
    obtain ⟨above, below⟩ := token.printable char member
    constructor
    next => rintro rfl; exact absurd above (by decide)
    next => rintro rfl; exact absurd below (by decide)

end Token

-- `strftime("%Y%m%d-%H:%M:%S.%f")[:-3]`
structure Timestamp extends Token where
  length_bytes : bytes.length = 21

def Timestamp.opening : Timestamp :=
  { Token.literal "20260717-18:00:00.000" with length_bytes := by decide +kernel }

structure FixLine where
  seqNum : Nat
  timestamp : Timestamp
  clOrdId : Token
  symbol : Token
  side : Nat
  quantity : Nat
  cents : Nat

namespace FixLine

variable (line : FixLine)

def text : Bytes :=
  ascii "8=FIX.4.2\x01" ++
    ascii "9=120\x01" ++
    ascii "35=D\x01" ++
    ascii "49=PRODUCER\x01" ++
    ascii "56=ENGINE\x01" ++
    ascii "34=" ++ toChars line.seqNum ++ ascii "\x01" ++
    ascii "52=" ++ line.timestamp.bytes ++ ascii "\x01" ++
    ascii "11=" ++ line.clOrdId.bytes ++ ascii "\x01" ++
    ascii "55=" ++ line.symbol.bytes ++ ascii "\x01" ++
    ascii "54=" ++ toChars line.side ++ ascii "\x01" ++
    ascii "38=" ++ toChars line.quantity ++ ascii "\x01" ++
    ascii "40=2\x01" ++
    ascii "44=" ++ (Token.price line.cents).bytes ++ ascii "\x01" ++
    ascii "10=128\x01"

def broken : Bytes := line.text ++ [lineFeed]

def values : List FixValue :=
  [(Token.literal "FIX.4.2").value, (Token.literal "120").value, (Token.literal "D").value,
    (Token.literal "PRODUCER").value, (Token.literal "ENGINE").value, .decimal line.seqNum,
    line.timestamp.value, line.clOrdId.value, line.symbol.value, .decimal line.side,
    .decimal line.quantity, (Token.literal "2").value, (Token.price line.cents).value,
    (Token.literal "128").value]

-- The tags are those of the template of the producer.
def fields : List FixField :=
  let price := (Token.price line.cents).value
  (templateFields (.decimal line.seqNum) line.clOrdId.value line.symbol.value (.decimal line.side)
    (.decimal line.quantity) price).zipWith (fun field value => { field with value }) line.values

theorem text_eq_serialize : line.text = FixField.serialize line.fields true := by
  have field8 : ascii "8=FIX.4.2\x01" = toCharsInt 8 ++ 61 :: (ascii "FIX.4.2" ++ [1]) := by
    decide +kernel
  have field9 : ascii "9=120\x01" = toCharsInt 9 ++ 61 :: (ascii "120" ++ [1]) := by
    decide +kernel
  have field35 : ascii "35=D\x01" = toCharsInt 35 ++ 61 :: (ascii "D" ++ [1]) := by
    decide +kernel
  have field49 : ascii "49=PRODUCER\x01" = toCharsInt 49 ++ 61 :: (ascii "PRODUCER" ++ [1]) := by
    decide +kernel
  have field56 : ascii "56=ENGINE\x01" = toCharsInt 56 ++ 61 :: (ascii "ENGINE" ++ [1]) := by
    decide +kernel
  have field40 : ascii "40=2\x01" = toCharsInt 40 ++ 61 :: (ascii "2" ++ [1]) := by
    decide +kernel
  have field10 : ascii "10=128\x01" = toCharsInt 10 ++ 61 :: (ascii "128" ++ [1]) := by
    decide +kernel
  have field34 : ascii "34=" = toCharsInt 34 ++ [61] := by decide +kernel
  have field52 : ascii "52=" = toCharsInt 52 ++ [61] := by decide +kernel
  have field11 : ascii "11=" = toCharsInt 11 ++ [61] := by decide +kernel
  have field55 : ascii "55=" = toCharsInt 55 ++ [61] := by decide +kernel
  have field54 : ascii "54=" = toCharsInt 54 ++ [61] := by decide +kernel
  have field38 : ascii "38=" = toCharsInt 38 ++ [61] := by decide +kernel
  have field44 : ascii "44=" = toCharsInt 44 ++ [61] := by decide +kernel
  have delimiter : ascii "\x01" = [1] := by decide +kernel
  delta text
  rw [FixField.serialize_closed, field8, field9, field35, field49, field56, field40, field10, field34,
    field52, field11, field55, field54, field38, field44, delimiter]
  simp only [fields, values, templateFields, List.zipWith_cons_cons, List.zipWith_nil_right,
    Token.literal, FixValue.decimal, Token.value, List.flatMap_cons, List.flatMap_nil, FixField.text,
    List.append_assoc, List.cons_append, List.nil_append]

theorem foldl_fields :
    line.fields.foldl FixField.assign {} =
      { msgType := [68]
        msgTypeChar := 68
        clOrdId := line.clOrdId.bytes
        symbol := line.symbol.bytes
        side := fromCharsInt (toChars line.side) 0
        quantity := fromCharsInt (toChars line.quantity) 0
        price := FixParser.parseFixedPointPrice (Token.price line.cents).bytes
        seqNum := fromCharsUint64 (toChars line.seqNum) 0 } := by
  simp [fields, values, templateFields, FixField.assign, FixParser.setField, Token.literal,
    FixValue.decimal, Token.value, ascii]

end FixLine

theorem addFraction_cents (cents : Nat) (value : Int) (lower : 0 ≤ value) (upper : value < 2 ^ 62) :
    FixParser.addFraction (FixParser.lastDigits cents 2) value 100000 =
      value + (cents % 100 * 10000 : Nat) := by
  have tens : cents / 10 % 10 < 10 := Nat.mod_lt _ (by decide)
  have ones : cents % 10 < 10 := Nat.mod_lt _ (by decide)
  have digits : FixParser.lastDigits cents 2 =
      [UInt8.ofNat (48 + cents / 10 % 10), UInt8.ofNat (48 + cents % 10)] := by
    simp [FixParser.lastDigits]
  have first := FixParser.addFraction_digit tens [UInt8.ofNat (48 + cents % 10)] value 100000
    (by decide) (by simp only [InInt64]; omega)
  have second := FixParser.addFraction_digit ones [] (value + (cents / 10 % 10 : Nat) * 100000)
    (100000 / 10) (by decide) (by simp only [InInt64]; omega)
  rw [digits, first, second, FixParser.addFraction]
  omega

theorem parseFixedPointPrice_price (cents : Nat) (small : cents < 2 ^ 32) :
    FixParser.parseFixedPointPrice (Token.price cents).bytes = (cents * 10000 : Nat) := by
  have stops : Stops isDigit (46 :: FixParser.lastDigits cents 2) := stops_cons (by decide)
  have whole := FixParser.integerPart_toChars (cents / 100) (by omega) stops
  have behind := dropWhile_body (isDigit_toChars (cents / 100)) stops
  have scaled : wrapInt64 (((cents / 100 : Nat) : Int) * 1000000) = (cents / 100 : Nat) * 1000000 := by
    rw [wrapInt64_of_inInt64]
    simp only [InInt64]
    omega
  have unsigned : FixParser.unsignedPrice (Token.price cents).bytes = (cents * 10000 : Nat) := by
    simp only [FixParser.unsignedPrice, Token.price, whole, behind, scaled]
    rw [addFraction_cents _ _ (by omega) (by omega)]
    omega
  have front := head?_toChars_append (cents / 100) (46 :: FixParser.lastDigits cents 2)
  unfold FixParser.parseFixedPointPrice
  split
  next chars other negative =>
    have digit := front 45 (by rw [show toChars (cents / 100) ++ 46 :: FixParser.lastDigits cents 2 =
      (Token.price cents).bytes from rfl, negative]; rfl)
    simp [isDigit] at digit
  next => exact unsigned

structure FixLine.Ordinary (line : FixLine) : Prop where
  seqNum_lt : line.seqNum < 2 ^ 64
  side_lt : line.side < 10
  quantity_lt : line.quantity < 2 ^ 31
  cents_lt : line.cents < 2 ^ 32
  clOrdId_short : line.clOrdId.bytes.length ≤ 40
  symbol_short : line.symbol.bytes.length ≤ 8

namespace FixLine

variable {line : FixLine}

theorem length_text (ordinary : line.Ordinary) : line.text.length ≤ 512 := by
  obtain ⟨seqNum_lt, side_lt, quantity_lt, cents_lt, clOrdId_short, symbol_short⟩ := ordinary
  have seqNum : (toChars line.seqNum).length ≤ 20 := length_toChars_le (by decide) (by omega)
  have side : (toChars line.side).length ≤ 1 := length_toChars_le (by decide) (by omega)
  have quantity : (toChars line.quantity).length ≤ 10 := length_toChars_le (by decide) (by omega)
  have whole : (toChars (line.cents / 100)).length ≤ 8 := length_toChars_le (by decide) (by omega)
  have timestamp := line.timestamp.length_bytes
  delta text
  simp [ascii, Token.price, FixParser.lastDigits]
  omega

theorem text_starts : ∃ rest, line.text = ascii "8=FIX.4." ++ rest := by
  have field8 : ascii "8=FIX.4.2\x01" = ascii "8=FIX.4." ++ ascii "2\x01" := by decide +kernel
  delta text
  rw [field8]
  simp only [List.append_assoc]
  exact ⟨_, rfl⟩

theorem parse_text (ordinary : line.Ordinary) :
    ProtocolParser.parseInPlace .fix (some line.text) =
      { msgType := [68]
        msgTypeChar := 68
        clOrdId := line.clOrdId.bytes
        symbol := line.symbol.bytes
        side := line.side
        quantity := line.quantity
        price := (line.cents * 10000 : Nat)
        seqNum := line.seqNum } := by
  have short := length_text ordinary
  obtain ⟨seqNum_lt, side_lt, quantity_lt, cents_lt, -, -⟩ := ordinary
  have some : line.text.length ≠ 0 := by
    obtain ⟨rest, starts⟩ := line.text_starts
    simp [starts, ascii]
  have whole : u32 line.text.length = line.text.length :=
    Nat.mod_eq_of_lt (Nat.lt_of_le_of_lt short (by decide))
  have side : fromCharsInt (toChars line.side) 0 = line.side := by
    have read := fromCharsInt_toChars line.side stops_nil (by simp only [InInt32]; omega) 0
    rwa [List.append_nil] at read
  have quantity : fromCharsInt (toChars line.quantity) 0 = line.quantity := by
    have read := fromCharsInt_toChars line.quantity stops_nil (by simp only [InInt32]; omega) 0
    rwa [List.append_nil] at read
  simp only [ProtocolParser.parseInPlace, some, if_false, whole]
  rw [text_eq_serialize]
  refine (FixField.parse_eq_foldl _ true).trans ?_
  rw [foldl_fields, side, quantity, parseFixedPointPrice_price _ cents_lt,
    fromCharsUint64_toChars _ seqNum_lt]

theorem text_unbroken : ∀ char, char ∈ line.text → UdpFixProducer.isBreak char = false := by
  have token (token : Token) : ∀ char, char ∈ token.bytes → UdpFixProducer.isBreak char = false := by
    intro char member
    obtain ⟨above, -⟩ := token.printable char member
    rw [UInt8.lt_iff_toNat_lt] at above
    simp only [UdpFixProducer.isBreak, Bool.or_eq_false_iff, beq_eq_false_iff_ne, ne_eq]
    constructor
    next => rintro rfl; exact absurd above (by decide)
    next => rintro rfl; exact absurd above (by decide)
  have seqNum := token (.decimal line.seqNum)
  have side := token (.decimal line.side)
  have quantity := token (.decimal line.quantity)
  have timestamp := token line.timestamp.toToken
  have clOrdId := token line.clOrdId
  have symbol := token line.symbol
  have price := token (.price line.cents)
  have constant : (ascii "8=FIX.4.2\x01" ++ ascii "9=120\x01" ++ ascii "35=D\x01" ++
      ascii "49=PRODUCER\x01" ++ ascii "56=ENGINE\x01" ++ ascii "34=" ++ ascii "52=" ++ ascii "11=" ++
      ascii "55=" ++ ascii "54=" ++ ascii "38=" ++ ascii "40=2\x01" ++ ascii "44=" ++
      ascii "10=128\x01" ++ ascii "\x01").all (fun char => !UdpFixProducer.isBreak char) = true := by
    decide +kernel
  simp only [List.all_append, Bool.and_eq_true, List.all_eq_true, Bool.not_eq_true'] at constant
  simp only [Token.decimal] at seqNum side quantity
  delta text
  simp only [List.forall_mem_append]
  simp_all

end FixLine

theorem words_broken {separates : UInt8 → Bool} (breaks : separates lineFeed = true)
    (fewer : ∀ char, UdpFixProducer.isBreak char = false → separates char = false)
    (lines : List FixLine) :
    words separates (lines.flatMap FixLine.broken) = lines.map FixLine.text := by
  induction lines with
  | nil => exact words_nil
  | cons line lines ih =>
    obtain ⟨rest, starts⟩ := line.text_starts
    have some : line.text ≠ [] := by simp [starts, ascii]
    have clear : ∀ char, char ∈ line.text → separates char = false :=
      fun char member => fewer char (line.text_unbroken char member)
    rw [List.flatMap_cons, FixLine.broken, List.append_assoc, List.singleton_append,
      words_append_cons line.text _ breaks, words_clear clear, if_neg some, ih]
    rfl

theorem loadedMessages_broken (file : Dataset) (lines : List FixLine)
    (content : file.content = lines.flatMap FixLine.broken) :
    UdpFixProducer.loadedMessages file = lines.map FixLine.text ∧
      EngineLauncher.totalMessages file = lines.length := by
  have text : UdpFixProducer.isBinary file = false := by
    cases lines with
    | nil =>
      have long := file.long
      simp [content] at long
    | cons line lines =>
      obtain ⟨rest, starts⟩ := line.text_starts
      have head : file.headView = ascii "8=FIX.4." := by
        rw [Dataset.headView, content, List.flatMap_cons, FixLine.broken, starts, List.append_assoc,
          List.append_assoc]
        exact List.take_left' (by decide +kernel)
      simp only [UdpFixProducer.isBinary, head]
      have prefixed : (ascii "8=FIX").isPrefixOf (ascii "8=FIX.4.") = true := by decide +kernel
      simp [prefixed]
  constructor
  next =>
    simp only [UdpFixProducer.loadedMessages, text, Bool.false_eq_true, if_false]
    rw [UdpFixProducer.loadLines_eq, content]
    exact words_broken (by decide) (fun _ unbroken => unbroken) lines
  next =>
    rw [EngineLauncher.totalMessages, ← file.isBinary_eq, text, if_neg (by decide),
      EngineLauncher.countLines_eq, content, words_broken (by decide) ?_ lines, List.length_map]
    intro char unbroken
    simp only [UdpFixProducer.isBreak, Bool.or_eq_false_iff] at unbroken
    exact unbroken.1

inductive Symbol where
  | petr4
  | vale3
  | itub4
  | bbdc4
  | abev3
  | wege3
  deriving DecidableEq, Repr

def Symbol.name : Symbol → Token
  | .petr4 => .literal "PETR4"
  | .vale3 => .literal "VALE3"
  | .itub4 => .literal "ITUB4"
  | .bbdc4 => .literal "BBDC4"
  | .abev3 => .literal "ABEV3"
  | .wege3 => .literal "WEGE3"

theorem Symbol.length_name (sym : Symbol) : sym.name.bytes.length = 5 := by
  cases sym <;> decide +kernel

end HftFixEngine.Scripts
