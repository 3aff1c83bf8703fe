import HftFixEngine.Arena.ProtocolArena
import HftFixEngine.Engine.GaplessStream
import HftFixEngine.Networking.BinaryDataset
import HftFixEngine.Scripts.FixLine

set_option autoImplicit false

namespace HftFixEngine.Scripts

open Protocol Networking Engine Word

namespace MultiProtocol

def basePrice : Symbol → Nat
  | .petr4 => 3500
  | .vale3 => 3520
  | .itub4 => 3480
  | .bbdc4 => 3510
  | .abev3 => 3490
  | .wege3 => 3530

-- What one round of the loop draws, and the times that it reads. Prices are in cents, as the sums of
-- the script have two digits behind the point.
structure Draw where
  isRiskCase : Bool
  sym : Symbol
  fatFinger : Bool
  priceOffset : Int
  lots : Nat
  timestampNs : Nat
  tsStr : Timestamp
  priceOffset_mem : priceOffset ∈ [-40, -20, 0, 20, (40 : Int)]
  lots_range : 1 ≤ lots ∧ lots ≤ 50

namespace Draw

variable (draw : Draw) (i : Nat)

def qty : Nat :=
  if draw.isRiskCase then if draw.fatFinger then 100000 else 500 else draw.lots * 100

def cents : Nat :=
  if draw.isRiskCase then
    if draw.fatFinger then basePrice draw.sym else basePrice draw.sym + 1000
  else (basePrice draw.sym + draw.priceOffset).toNat

def sideVal : Nat :=
  if draw.isRiskCase then 1 else if i % 2 = 1 then 1 else 2

def priceScaled : Nat := draw.cents * 10000

end Draw

def ljust (width : Nat) (text : Bytes) : Bytes := text ++ List.replicate (width - text.length) 32

-- `struct.pack` cuts a string to its width, or fills it up with zeros.
def packString (width : Nat) (text : Bytes) : Bytes :=
  (text ++ List.replicate (width - text.length) 0).take width

theorem length_packString (width : Nat) (text : Bytes) : (packString width text).length = width := by
  simp [packString]
  omega

theorem packString_ljust {width : Nat} {text : Bytes} (short : text.length ≤ width) :
    packString width (ljust width text) = text ++ List.replicate (width - text.length) 32 := by
  have length : (ljust width text).length = width := by
    simp [ljust]
    omega
  rw [packString, length, Nat.sub_self, List.replicate_zero, List.append_nil,
    List.take_of_length_le (Nat.le_of_eq length), ljust]

def clIdStr (i : Nat) : Token := .append (.literal "ORD_") (.decimal i)

def ouchPacket (i : Nat) (draw : Draw) : OuchEnterOrderPacket where
  seqNum := i
  clOrdId := packString 14 (ljust 14 (clIdStr i).bytes)
  side := if draw.sideVal i = 1 then 66 else 83
  quantity := draw.qty
  priceScaled := draw.priceScaled
  symbol := packString 6 (ljust 6 draw.sym.name.bytes)
  timestampNs := draw.timestampNs
  clOrdId_length := length_packString 14 _
  symbol_length := length_packString 6 _

def sbePacket (i : Nat) (draw : Draw) : SbeNewOrderSinglePacket where
  seqNum := i
  clOrdIdNum := i
  priceScaled := draw.priceScaled
  quantity := draw.qty
  side := UInt8.ofNat (draw.sideVal i)
  symbol := packString 8 (ljust 8 draw.sym.name.bytes)

def sbeHeader : SbeHeader where
  blockLength := 36
  templateId := 514
  schemaId := 1
  version := 1

def fixLine (i : Nat) (draw : Draw) : FixLine where
  seqNum := i
  timestamp := draw.tsStr
  clOrdId := clIdStr i
  symbol := draw.sym.name
  side := draw.sideVal i
  quantity := draw.qty
  cents := draw.cents

def message (type : ProtocolType) (i : Nat) (draw : Draw) : Bytes :=
  match type with
  | .ouch => (ouchPacket i draw).bytes
  | .sbe => (sbePacket i draw).framed sbeHeader 0
  | .fix => (fixLine i draw).broken

structure Generation where
  seqCounter : Nat := 1
  batch : List Bytes := []
  content : Bytes := []

namespace Generation

def write (generation : Generation) : Generation :=
  { generation with batch := [], content := generation.content ++ generation.batch.flatten }

def round (type : ProtocolType) (generation : Generation) (draw : Draw) : Generation :=
  let next : Generation :=
    { generation with
      seqCounter := generation.seqCounter + 1
      batch := generation.batch ++ [message type generation.seqCounter draw] }
  if next.batch.length ≥ 10000 then next.write else next

end Generation

def generateMessages (type : ProtocolType) (draws : List Draw) : Bytes :=
  let done := draws.foldl (Generation.round type) {}
  (if done.batch.isEmpty then done else done.write).content

def numbered {β : Type} (make : Nat → Draw → β) (draws : List Draw) : List β :=
  (draws.zipIdx 1).map fun drawn => make drawn.2 drawn.1

theorem length_numbered {β : Type} (make : Nat → Draw → β) (draws : List Draw) :
    (numbered make draws).length = draws.length := by
  simp [numbered]

theorem numbered_append {β : Type} (make : Nat → Draw → β) (draws : List Draw) (draw : Draw) :
    numbered make (draws ++ [draw]) = numbered make draws ++ [make (draws.length + 1) draw] := by
  simp [numbered, List.zipIdx_append, Nat.add_comm]

theorem map_numbered {β γ : Type} (f : β → γ) (make : Nat → Draw → β) (draws : List Draw) :
    (numbered make draws).map f = numbered (fun i draw => f (make i draw)) draws := by
  simp [numbered, Function.comp_def]

-- Written or still in the batch, nothing is lost between two writes.
theorem foldl_round (type : ProtocolType) (draws : List Draw) :
    let done := draws.foldl (Generation.round type) {}
    done.seqCounter = draws.length + 1 ∧
      done.content ++ done.batch.flatten = (numbered (message type) draws).flatten := by
  induction draws using List.reverseRecOn with
  | nil => exact ⟨rfl, rfl⟩
  | append_singleton draws draw ih =>
    obtain ⟨counter, kept⟩ := ih
    rw [List.foldl_append, List.foldl_cons, List.foldl_nil, numbered_append, List.flatten_append,
      ← kept, List.length_append]
    simp only [Generation.round, Generation.write, counter]
    split <;> simp

theorem generateMessages_eq (type : ProtocolType) (draws : List Draw) :
    generateMessages type draws = (numbered (message type) draws).flatten := by
  have kept := (foldl_round type draws).2
  simp only [generateMessages, Generation.write]
  split
  next empty =>
    rw [List.isEmpty_iff] at empty
    rw [empty, List.flatten_nil, List.append_nil] at kept
    exact kept
  next => exact kept

end MultiProtocol

end HftFixEngine.Scripts
