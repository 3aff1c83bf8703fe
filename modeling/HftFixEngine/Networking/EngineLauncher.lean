import HftFixEngine.Networking.Dataset
import HftFixEngine.Protocol.ProtocolParser

set_option autoImplicit false

namespace HftFixEngine.Networking

open Protocol

namespace EngineLauncher

def isSpace (char : UInt8) : Bool := char == 32 || (decide (9 ≤ char) && decide (char ≤ 13))

def unsignedLong (digits : Bytes) : Option Nat :=
  (leadingNumber digits).filter fun number => number < 2 ^ 64

-- `std::stoul` throws where this is `none`. A minus sign is taken, and the number negated in 64 bits.
def stoul (text : Bytes) : Option Nat :=
  match text.dropWhile isSpace with
  | 45 :: digits => (unsignedLong digits).map fun number => (2 ^ 64 - number) % 2 ^ 64
  | 43 :: digits => unsignedLong digits
  | digits => unsignedLong digits

structure Settings where
  rxInterface : Bytes := []
  txInterface : Bytes := []
  directQueueMode : Bool := false
  enableCorePinning : Bool := false
  queueId : Nat := 0
  explicitProtocolArg : Bytes := []
  deriving DecidableEq, Repr

structure CommandLine extends Settings where
  positionalArgs : List Bytes := []
  deriving DecidableEq, Repr

-- An option that no test knows is passed over.
def readArg (line : CommandLine) (arg : Bytes) : Option CommandLine :=
  if arg = ascii "--direct-queue" then some { line with directQueueMode := true }
  else if arg = ascii "--pin-cores" then some { line with enableCorePinning := true }
  else if (ascii "--rx-iface=").isPrefixOf arg then some { line with rxInterface := arg.drop 11 }
  else if (ascii "--tx-iface=").isPrefixOf arg then some { line with txInterface := arg.drop 11 }
  else if (ascii "--queue-id=").isPrefixOf arg then
    (stoul (arg.drop 11)).map fun id => { line with queueId := id % 2 ^ 32 }
  else if (ascii "--protocol=").isPrefixOf arg then
    some { line with explicitProtocolArg := arg.drop 11 }
  else if (ascii "--").isPrefixOf arg then some line
  else some { line with positionalArgs := line.positionalArgs ++ [arg] }

structure Placement where
  rxInterface : Bytes
  txInterface : Bytes
  udpPort : Nat := 0
  sourceParam : Bytes := []
  rest : List Bytes
  deriving DecidableEq, Repr

namespace Placement

variable (placement : Placement)

def placeRx : Placement :=
  match placement.rest with
  | arg :: rest =>
    if placement.rxInterface.isEmpty then { placement with rxInterface := arg, rest } else placement
  | [] => placement

def placeTx (positionalArgs : List Bytes) : Placement :=
  match placement.rest with
  | arg :: rest =>
    if placement.txInterface.isEmpty && decide (positionalArgs.length ≥ 4) && (stoul arg).isNone then
      { placement with txInterface := arg, rest }
    else placement
  | [] => placement

def placePort : Option Placement :=
  match placement.rest with
  | arg :: rest => (stoul arg).map fun port => { placement with udpPort := port % 2 ^ 16, rest }
  | [] => some placement

def placeSource : Placement :=
  match placement.rest with
  | arg :: rest => { placement with sourceParam := arg, rest }
  | [] => placement

def pair : Placement :=
  if placement.txInterface.isEmpty then
    if placement.rxInterface = ascii "veth0" then { placement with txInterface := ascii "veth1" }
    else if placement.rxInterface = ascii "veth1" then { placement with txInterface := ascii "veth0" }
    else { placement with txInterface := placement.rxInterface }
  else placement

end Placement

def place (line : CommandLine) : Option Placement :=
  let start : Placement :=
    { rxInterface := line.rxInterface, txInterface := line.txInterface, rest := line.positionalArgs }
  ((start.placeRx.placeTx line.positionalArgs).placePort).map fun placement =>
    placement.placeSource.pair

def lowered (char : UInt8) : UInt8 := if 65 ≤ char ∧ char ≤ 90 then char + 32 else char

def containsCi (haystack needle : Bytes) : Bool :=
  (haystack.map lowered).tails.any fun rest => (needle.map lowered).isPrefixOf rest

def parseProtocolType (name : Bytes) : ProtocolType :=
  if containsCi name (ascii "ouch") then .ouch
  else if containsCi name (ascii "sbe") then .sbe
  else .fix

def protoPrefix : ProtocolType → Bytes
  | .ouch => ascii "ouch"
  | .sbe => ascii "sbe"
  | .fix => ascii "fix"

-- What the engine is started with. The file's path is empty where the source is a count.
structure Launch where
  rxInterface : Bytes
  txInterface : Bytes
  targetIp : Bytes
  udpPort : Nat
  directQueueMode : Bool
  enableCorePinning : Bool
  queueId : Nat
  fixFilePath : Bytes
  totalMessages : Nat
  protocolType : ProtocolType
  logFilename : Bytes
  csvFilename : Bytes
  deriving DecidableEq, Repr

inductive Outcome where
  | usage
  | missing
  | terminated
  | launched (launch : Launch)
  deriving DecidableEq, Repr

section Run

variable (files : Bytes → Option Dataset)

def launch (settings : Settings) (placement : Placement) : Launch :=
  let file := files placement.sourceParam
  let protocolType :=
    if settings.explicitProtocolArg.isEmpty then parseProtocolType placement.sourceParam
    else parseProtocolType settings.explicitProtocolArg
  { rxInterface := placement.rxInterface
    txInterface := placement.txInterface
    targetIp :=
      if placement.txInterface = ascii "lo" then ascii "127.0.0.1" else ascii "239.255.0.1"
    udpPort := placement.udpPort
    directQueueMode := settings.directQueueMode
    enableCorePinning := settings.enableCorePinning
    queueId := settings.queueId
    fixFilePath := if file.isSome then placement.sourceParam else []
    totalMessages :=
      match file with
      | some file => totalMessages file
      | none => (stoul placement.sourceParam).getD 50000
    protocolType
    logFilename := protoPrefix protocolType ++ ascii "_engine.log"
    csvFilename := protoPrefix protocolType ++ ascii "_metrics_time_series.csv" }

def run (args : List Bytes) : Outcome :=
  if args.any fun arg => arg = ascii "--help" || arg = ascii "-h" then .usage
  else if args.length < 3 then .missing
  else
    match args.foldlM readArg {} with
    | some line =>
      match place line with
      | some placement => .launched (launch files line.toSettings placement)
      | none => .terminated
    | none => .terminated

end Run

end EngineLauncher

end HftFixEngine.Networking
