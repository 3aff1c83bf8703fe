import HftFixEngine.Networking.FeedArbitrator
import HftFixEngine.Protocol.Decimal
import HftFixEngine.Protocol.PreTradeRiskManager
import HftFixEngine.Protocol.ProtocolParser
import HftFixEngine.Protocol.SequenceGapDetector

set_option autoImplicit false

namespace HftFixEngine.Engine

open Protocol Networking Word

-- The clocks are outside the model, so a packet brings its latency and the current time along, and
-- what the dangling id of an SBE order shows when it is read.
structure Packet where
  payload : Option Bytes
  latencyNs : Nat
  currentTs : Nat
  staleId : Bytes := []

inductive LogEvent where
  | duplicateFeed (seqNum : Nat)
  | sequenceGap (requestName : Bytes) (gap : SequenceGap)
  | riskRejection (clOrdId : Bytes) (reason : RejectionReason)
  | matchedTrade (tradeId : Nat) (symbol buyClOrdId sellClOrdId : Bytes) (matchQty : Nat)
      (matchPrice : Int)
  deriving DecidableEq, Repr

structure Telemetry where
  messagesProcessed : Nat := 0
  riskApproved : Nat := 0
  riskRejected : Nat := 0
  totalLatencyNs : Nat := 0
  approvedTotalLatencyNs : Nat := 0
  rejectedTotalLatencyNs : Nat := 0
  minLatencyNs : Nat := 2 ^ 64 - 1
  maxLatencyNs : Nat := 0
  deriving DecidableEq, Repr

-- `processed` is an unsigned int, the other counters are 64 bits wide.
def Telemetry.count (telemetry : Telemetry) (approved : Bool) (latency : Nat) : Telemetry :=
  { messagesProcessed := u32 (telemetry.messagesProcessed + 1)
    riskApproved :=
      if approved then u64 (telemetry.riskApproved + 1) else telemetry.riskApproved
    riskRejected :=
      if approved then telemetry.riskRejected else u64 (telemetry.riskRejected + 1)
    totalLatencyNs := u64 (telemetry.totalLatencyNs + latency)
    approvedTotalLatencyNs :=
      if approved then u64 (telemetry.approvedTotalLatencyNs + latency)
      else telemetry.approvedTotalLatencyNs
    rejectedTotalLatencyNs :=
      if approved then telemetry.rejectedTotalLatencyNs
      else u64 (telemetry.rejectedTotalLatencyNs + latency)
    minLatencyNs := min latency telemetry.minLatencyNs
    maxLatencyNs := max latency telemetry.maxLatencyNs }

abbrev referencePrice : Int := 35000000

structure Ingress where
  riskMgr : PreTradeRiskManager := {}
  gapDetector : SequenceGapDetector := {}
  feedArbitrator : FeedArbitrator := { windowSize := 2048 }

-- An order on its way to the book; a duplicate has no risk result.
structure Screening where
  order : ParsedOrder
  gap : Option SequenceGap
  risk : Option RiskCheckResult
  ingress : Ingress

namespace Ingress

def arbitrate (ingress : Ingress) (seqNum : Nat) : Bool × Ingress :=
  if 0 < seqNum then
    let (result, arbitrator) := ingress.feedArbitrator.processPacket .lineA seqNum
    (result.isDuplicate, { ingress with feedArbitrator := arbitrator })
  else (false, ingress)

def checkGap (ingress : Ingress) (seqNum : Nat) : Option SequenceGap × Ingress :=
  if 0 < seqNum then
    let (result, detector) := ingress.gapDetector.processSequence seqNum
    (if result.status = .gapDetected then some result.gap else none,
      { ingress with gapDetector := detector })
  else (none, ingress)

def screen (ingress : Ingress) (protocol : ProtocolType) (packet : Packet) : Screening :=
  let order := { ProtocolParser.received protocol packet.payload packet.staleId with
    latencyNs := packet.latencyNs }
  let (isDuplicate, ingress) := ingress.arbitrate order.seqNum
  if isDuplicate then { order, gap := none, risk := none, ingress }
  else
    let (gap, ingress) := ingress.checkGap order.seqNum
    let (risk, riskMgr) := ingress.riskMgr.evaluateOrder order referencePrice
    { order, gap, risk := some risk, ingress := { ingress with riskMgr } }

theorem screen_order (ingress : Ingress) (protocol : ProtocolType) (packet : Packet) :
    (ingress.screen protocol packet).order =
      { ProtocolParser.received protocol packet.payload packet.staleId with
        latencyNs := packet.latencyNs } := by
  unfold screen
  simp only
  split <;> rfl

end Ingress

namespace Screening

def admitted (screening : Screening) : Bool :=
  decide (screening.risk = some .approved) && decide (screening.order.msgTypeChar = 68)

theorem not_admitted_of_duplicate {screening : Screening} (duplicate : screening.risk = none) :
    screening.admitted = false := by
  simp [admitted, duplicate]

def handed (screening : Screening) : List ParsedOrder :=
  if screening.admitted then [screening.order] else []

-- The two workers have their own name for the request that they log with a gap.
def events (requestName : Bytes) (screening : Screening) : List LogEvent :=
  match screening.risk with
  | none => [.duplicateFeed screening.order.seqNum]
  | some .approved => screening.gap.toList.map (LogEvent.sequenceGap requestName)
  | some (.rejected reason) =>
    screening.gap.toList.map (LogEvent.sequenceGap requestName) ++
      [.riskRejection screening.order.clOrdId reason]

end Screening

end HftFixEngine.Engine
