import HftFixEngine.Protocol.Decimal
import HftFixEngine.Shared.Loop
import HftFixEngine.Shared.Words

set_option autoImplicit false

namespace HftFixEngine.Networking

open Protocol Words

-- A file that can be opened. The first `read` of one with less than 8 bytes fails, and with it every
-- `seekg`; such a file is left out.
structure Dataset where
  path : Bytes
  content : Bytes
  named : path ≠ []
  long : 8 ≤ content.length

def Dataset.headView (file : Dataset) : Bytes := file.content.take 8

abbrev carriageReturn : UInt8 := 13

abbrev lineFeed : UInt8 := 10

namespace EngineLauncher

def isBinaryDataset (file : Dataset) : Bool :=
  if (ascii "8=FIX").isPrefixOf file.headView || (ascii "8=").isPrefixOf file.headView then false
  else
    (ascii ".data").isSuffixOf file.path ||
      (decide (file.headView.length > 0) && file.headView.head? == some 79)

structure LineCount where
  rest : Bytes
  totalMessages : Nat

def hasLine (count : LineCount) : Bool := !count.rest.isEmpty

def countLine (count : LineCount) : LineCount :=
  let line := count.rest.takeWhile fun byte => !(byte == lineFeed)
  { rest := count.rest.drop (line.length + 1)
    totalMessages := if line.isEmpty then count.totalMessages else count.totalMessages + 1 }

def totalMessages (file : Dataset) : Nat :=
  if isBinaryDataset file then
    let fileSize := file.content.length
    if fileSize % 46 = 0 then fileSize / 46 else fileSize / 44
  else
    (Loop.run hasLine countLine file.content.length
      { rest := file.content, totalMessages := 0 }).totalMessages

end EngineLauncher

namespace UdpFixProducer

def isBinary (file : Dataset) : Bool :=
  let isFixAscii :=
    (ascii "8=FIX").isPrefixOf file.headView || (ascii "8=").isPrefixOf file.headView
  !isFixAscii &&
    ((ascii ".data").isSuffixOf file.path ||
      (decide (file.headView.length > 0) && file.headView.head? == some 79))

-- `npos` is `none`.
def findFirstOf (view chars : Bytes) (pos : Nat) : Option Nat :=
  ((view.drop pos).findIdx? fun byte => chars.contains byte).map (pos + ·)

def findFirstNotOf (view chars : Bytes) (pos : Nat) : Option Nat :=
  ((view.drop pos).findIdx? fun byte => !chars.contains byte).map (pos + ·)

def lineBreaks : Bytes := [carriageReturn, lineFeed]

structure LineLoad where
  start : Option Nat
  loaded : List Bytes

def inView (view : Bytes) (load : LineLoad) : Bool :=
  match load.start with
  | some start => start < view.length
  | none => false

def loadLine (view : Bytes) (load : LineLoad) : LineLoad :=
  match load.start with
  | some start =>
    let stop := (findFirstOf view lineBreaks start).getD view.length
    { start := findFirstNotOf view lineBreaks stop
      loaded :=
        if stop > start then load.loaded ++ [field view start (stop - start)] else load.loaded }
  | none => load

structure PacketLoad where
  offset : Nat
  loaded : List Bytes

def packetSize (fileSize : Nat) : Nat := if fileSize % 46 = 0 then 46 else 44

def hasPacket (data : Bytes) (load : PacketLoad) : Bool :=
  load.offset + packetSize data.length ≤ data.length

def loadPacket (data : Bytes) (load : PacketLoad) : PacketLoad where
  offset := load.offset + packetSize data.length
  loaded := load.loaded ++ [field data load.offset (packetSize data.length)]

def loadedMessages (file : Dataset) : List Bytes :=
  let data := file.content
  if isBinary file then
    (Loop.run (hasPacket data) (loadPacket data) data.length { offset := 0, loaded := [] }).loaded
  else
    (Loop.run (inView data) (loadLine data) data.length { start := some 0, loaded := [] }).loaded

end UdpFixProducer

namespace EngineLauncher

theorem countLine_words (count : LineCount) :
    (countLine count).totalMessages + (words (· == lineFeed) (countLine count).rest).length =
      count.totalMessages + (words (· == lineFeed) count.rest).length := by
  have clear : ∀ byte, byte ∈ count.rest.takeWhile (fun byte => !(byte == lineFeed)) →
      (byte == lineFeed) = false := by
    intro byte member
    simpa using List.mem_takeWhile_imp member
  rw [words_first count.rest, words_after, words_clear clear, List.length_append]
  simp only [countLine, List.isEmpty_iff]
  split
  next => simp
  next => simp [Nat.add_assoc]

theorem countLines_eq (content : Bytes) :
    (Loop.run hasLine countLine content.length
      { rest := content, totalMessages := 0 }).totalMessages =
      (words (· == lineFeed) content).length := by
  let now := Loop.run hasLine countLine content.length { rest := content, totalMessages := 0 }
  have counted : now.totalMessages + (words (· == lineFeed) now.rest).length =
      0 + (words (· == lineFeed) content).length := by
    refine Loop.run_invariant (fun count : LineCount => count.totalMessages +
      (words (· == lineFeed) count.rest).length = 0 + (words (· == lineFeed) content).length)
      ?_ content.length rfl
    intro count same _
    exact (countLine_words count).trans same
  have atEnd : hasLine now = false := by
    refine Loop.run_exits (fun _ => True) (fun count => count.rest.length) (fun _ _ _ => trivial) ?_
      content.length trivial (Nat.le_refl _)
    intro count _ going
    have some : 0 < count.rest.length := by
      rw [List.length_pos_iff]
      simpa [hasLine] using going
    simp only [countLine, List.length_drop]
    omega
  have rest : now.rest = [] := by simpa [hasLine] using atEnd
  rw [rest] at counted
  simpa using counted

end EngineLauncher

namespace UdpFixProducer

def isBreak (byte : UInt8) : Bool := byte == lineFeed || byte == carriageReturn

theorem contains_lineBreaks (byte : UInt8) : lineBreaks.contains byte = isBreak byte := by
  rw [lineBreaks, isBreak, List.contains_cons, List.contains_cons, List.contains_nil, Bool.or_false,
    Bool.or_comm]

def left (view : Bytes) : Option Nat → Bytes
  | some start => view.drop start
  | none => []

theorem findFirstOf_getD (view : Bytes) {start : Nat} (inside : start ≤ view.length) :
    (findFirstOf view lineBreaks start).getD view.length = stopFrom isBreak view start := by
  have index : ((view.drop start).takeWhile fun byte => !isBreak byte).length =
      ((view.drop start).findIdx? isBreak).getD (view.drop start).length := by
    rw [← List.findIdx_eq_getD_findIdx?, List.takeWhile_eq_take_findIdx_not, List.length_take]
    simp only [Bool.not_not]
    exact Nat.min_eq_left List.findIdx_le_length
  rw [stopFrom, index, findFirstOf]
  simp only [contains_lineBreaks]
  cases (view.drop start).findIdx? isBreak with
  | none =>
    simp only [Option.map_none, Option.getD_none, List.length_drop]
    omega
  | some position => rfl

theorem left_findFirstNotOf (view : Bytes) (pos : Nat) :
    left view (findFirstNotOf view lineBreaks pos) = (view.drop pos).dropWhile isBreak := by
  rw [List.dropWhile_eq_drop_findIdx_not, List.findIdx_eq_getD_findIdx?, findFirstNotOf]
  simp only [contains_lineBreaks]
  cases (view.drop pos).findIdx? fun byte => !isBreak byte with
  | none => rw [Option.getD_none, List.drop_length]; rfl
  | some position => rw [Option.getD_some, List.drop_drop]; rfl

theorem loadLine_words (view : Bytes) (load : LineLoad) (going : inView view load = true) :
    (loadLine view load).loaded ++ words isBreak (left view (loadLine view load).start) =
        load.loaded ++ words isBreak (left view load.start) ∧
      (left view (loadLine view load).start).length < (left view load.start).length := by
  cases here : load.start with
  | none => simp [inView, here] at going
  | some start =>
    have inside : start < view.length := by simpa [inView, here] using going
    have some : view.drop start ≠ [] := by
      rw [ne_eq, List.drop_eq_nil_iff]
      omega
    have shorter : ((view.drop (stopFrom isBreak view start)).dropWhile isBreak).length <
        (view.drop start).length := by
      rw [drop_stopFrom]
      exact skip_shorter some
    simp only [loadLine, here, findFirstOf_getD view (Nat.le_of_lt inside), left_findFirstNotOf]
    refine ⟨?_, shorter⟩
    rw [words_skip, left, words_drop isBreak view start]
    split
    next => exact List.append_assoc _ _ _
    next => rfl

theorem loadLines_ends (view : Bytes) :
    inView view (Loop.run (inView view) (loadLine view) view.length
      { start := some 0, loaded := [] }) = false :=
  Loop.run_exits (fun _ => True) (fun load => (left view load.start).length)
    (fun _ _ _ => trivial) (fun load _ going => (loadLine_words view load going).2) view.length
    trivial (Nat.le_refl _)

theorem loadLines_eq (view : Bytes) :
    (Loop.run (inView view) (loadLine view) view.length { start := some 0, loaded := [] }).loaded =
      words isBreak view := by
  let now := Loop.run (inView view) (loadLine view) view.length { start := some 0, loaded := [] }
  have kept : now.loaded ++ words isBreak (left view now.start) = [] ++ words isBreak view := by
    refine Loop.run_invariant (fun load : LineLoad => load.loaded ++
      words isBreak (left view load.start) = [] ++ words isBreak view) ?_ view.length rfl
    intro load same going
    exact (loadLine_words view load going).1.trans same
  have atEnd : inView view now = false := loadLines_ends view
  have rest : left view now.start = [] := by
    cases here : now.start with
    | none => rfl
    | some start =>
      rw [inView, here] at atEnd
      exact List.drop_eq_nil_of_le (by simpa using atEnd)
  rw [rest] at kept
  simpa using kept

theorem packetSize_pos (fileSize : Nat) : 0 < packetSize fileSize := by
  unfold packetSize
  split <;> decide

theorem loadPackets_eq (data : Bytes) :
    (Loop.run (hasPacket data) (loadPacket data) data.length { offset := 0, loaded := [] }).loaded =
      (List.range (data.length / packetSize data.length)).map fun i =>
        field data (i * packetSize data.length) (packetSize data.length) := by
  have positive := packetSize_pos data.length
  let now := Loop.run (hasPacket data) (loadPacket data) data.length { offset := 0, loaded := [] }
  obtain ⟨count, offset, inside, loaded⟩ :
      ∃ count, now.offset = count * packetSize data.length ∧
        count * packetSize data.length ≤ data.length ∧
        now.loaded = (List.range count).map fun i =>
          field data (i * packetSize data.length) (packetSize data.length) := by
    refine Loop.run_invariant (fun load : PacketLoad => ∃ count,
      load.offset = count * packetSize data.length ∧ count * packetSize data.length ≤ data.length ∧
        load.loaded = (List.range count).map fun i =>
          field data (i * packetSize data.length) (packetSize data.length)) ?_ data.length
      ⟨0, by simp⟩
    rintro load ⟨count, offset, inside, loaded⟩ going
    have fits : load.offset + packetSize data.length ≤ data.length := by
      simpa [hasPacket] using going
    refine ⟨count + 1, ?_, ?_, ?_⟩
    next => rw [loadPacket, offset, Nat.succ_mul]
    next =>
      rw [Nat.succ_mul, ← offset]
      exact fits
    next => rw [loadPacket, loaded, offset, List.range_succ, List.map_append, List.map_singleton]
  have atEnd : hasPacket data now = false := by
    refine Loop.run_exits (fun _ => True) (fun load => data.length - load.offset)
      (fun _ _ _ => trivial) ?_ data.length trivial (Nat.le_refl _)
    intro load _ going
    have fits : load.offset + packetSize data.length ≤ data.length := by
      simpa [hasPacket] using going
    simp only [loadPacket]
    omega
  have all : data.length / packetSize data.length = count := by
    rw [Nat.div_eq_iff positive]
    simp only [hasPacket, offset, decide_eq_false_iff_not] at atEnd
    omega
  rw [all]
  exact loaded

end UdpFixProducer

namespace Dataset

variable (file : Dataset)

def lines : List Bytes := words (· == lineFeed) file.content

def returnLines : Nat := (file.lines.filter fun line => line.all (· == carriageReturn)).length

def innerReturns : Nat := (file.lines.map (gaps (· == carriageReturn))).sum

theorem isBinary_eq : UdpFixProducer.isBinary file = EngineLauncher.isBinaryDataset file := by
  unfold UdpFixProducer.isBinary EngineLauncher.isBinaryDataset
  split <;> simp [*]

theorem totalMessages_binary (binary : UdpFixProducer.isBinary file = true) :
    EngineLauncher.totalMessages file = (UdpFixProducer.loadedMessages file).length := by
  have same := file.isBinary_eq
  simp only [EngineLauncher.totalMessages, UdpFixProducer.loadedMessages, ← same, binary, if_true,
    UdpFixProducer.loadPackets_eq, List.length_map, List.length_range, UdpFixProducer.packetSize]
  split <;> rfl

-- Line by line, the producer has one message more than gaps, and none in a line of returns.
theorem words_lines :
    (file.lines.flatMap (words (· == carriageReturn))).length + file.returnLines =
      file.lines.length + file.innerReturns := by
  rw [returnLines, innerReturns]
  induction file.lines with
  | nil => rfl
  | cons line lines ih =>
    have here : (words (· == carriageReturn) line).length +
        (if line.all (· == carriageReturn) then 1 else 0) = 1 + gaps (· == carriageReturn) line :=
      length_words line
    rw [List.flatMap_cons, List.length_append, List.filter_cons, List.map_cons, List.sum_cons,
      List.length_cons]
    split at here
    next all =>
      rw [if_pos all, List.length_cons]
      omega
    next mixed =>
      rw [if_neg mixed]
      omega

theorem totalMessages_eq_iff :
    EngineLauncher.totalMessages file = (UdpFixProducer.loadedMessages file).length ↔
      UdpFixProducer.isBinary file = true ∨ file.returnLines = file.innerReturns := by
  by_cases binary : UdpFixProducer.isBinary file = true
  next => exact ⟨fun _ => .inl binary, fun _ => file.totalMessages_binary binary⟩
  next =>
    have counted : EngineLauncher.totalMessages file = file.lines.length := by
      rw [EngineLauncher.totalMessages, ← isBinary_eq, if_neg binary]
      exact EngineLauncher.countLines_eq file.content
    have loaded : UdpFixProducer.loadedMessages file =
        file.lines.flatMap (words (· == carriageReturn)) := by
      simp only [UdpFixProducer.loadedMessages, if_neg binary]
      rw [UdpFixProducer.loadLines_eq]
      exact words_or file.content
    have balance := file.words_lines
    rw [counted, loaded, or_iff_right binary]
    omega

def crlfBlankLine : Dataset where
  path := ascii "orders.txt"
  content := ascii "8=FIX.4.2\r\n\r\n8=FIX.4.2\r\n"
  named := by decide +kernel
  long := by decide +kernel

theorem totalMessages_crlf :
    EngineLauncher.totalMessages crlfBlankLine = 3 ∧
      (UdpFixProducer.loadedMessages crlfBlankLine).length = 2 ∧
      EngineLauncher.totalMessages crlfBlankLine ≠
        (UdpFixProducer.loadedMessages crlfBlankLine).length := by
  decide +kernel

end Dataset

end HftFixEngine.Networking
