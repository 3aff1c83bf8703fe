import HftFixEngine.Matching.ClientIds
import HftFixEngine.Protocol.PreTradeRiskManager
import HftFixEngine.Protocol.WireFormats

set_option autoImplicit false

namespace HftFixEngine.Arena

open Protocol Matching Word

-- What a benchmark run keeps; the answers of the risk gate are recorded as well.
structure Benchmark where
  riskMgr : PreTradeRiskManager
  matchingEngine : MatchingEngine Unit := {}
  trades : List (TradeExecution Unit) := []
  riskApproved : Nat := 0
  answers : List RiskCheckResult := []

namespace Benchmark

def handle (state : Benchmark) (referencePrice : Int) (order : ParsedOrder) : Benchmark :=
  let riskRes := state.riskMgr.evaluateOrder order referencePrice
  let checked : Benchmark :=
    { state with riskMgr := riskRes.2, answers := state.answers ++ [riskRes.1] }
  match riskRes.1 with
  | .rejected _ => checked
  | .approved =>
    let approved := { checked with riskApproved := u64 (checked.riskApproved + 1) }
    if order.msgType = [68] then
      let done := approved.matchingEngine.processOrder order () approved.trades 0
      { approved with matchingEngine := done.2.1, trades := done.2.2 }
    else approved

def receive (type : ProtocolType) (referencePrice : Int) (state : Benchmark) (packet : Bytes) :
    Benchmark :=
  state.handle referencePrice (ProtocolParser.parseInPlace type (some packet))

def run (riskMgr : PreTradeRiskManager) (referencePrice : Int) (type : ProtocolType)
    (rawPackets : List Bytes) : Benchmark :=
  rawPackets.foldl (receive type referencePrice) { riskMgr }

end Benchmark

def runProtocolBenchmark (type : ProtocolType) (rawPackets : List Bytes) : Benchmark :=
  Benchmark.run
    { limits :=
        { maxOrderQty := 50000, maxPriceDeviationScaled := 5000000, maxNotionalValueUsd := 2000000
          killSwitchActive := false } }
    35000000 type rawPackets

namespace Benchmark

def anonymous (state : Benchmark) : Benchmark :=
  { state with
    matchingEngine := state.matchingEngine.anonymous
    trades := state.trades.map TradeExecution.anonymous }

theorem handle_anonymous (state : Benchmark) (referencePrice : Int) (order : ParsedOrder) :
    state.anonymous.handle referencePrice order.anonymous =
      (state.handle referencePrice order).anonymous := by
  have sameRisk : state.anonymous.riskMgr.evaluateOrder order.anonymous referencePrice =
      state.riskMgr.evaluateOrder order referencePrice := rfl
  have done := state.matchingEngine.processOrder_anonymous order () state.trades 0
  unfold handle
  rw [sameRisk]
  generalize state.riskMgr.evaluateOrder order referencePrice = riskRes
  obtain ⟨answer, riskMgr⟩ := riskRes
  cases answer with
  | rejected reason => rfl
  | approved =>
    by_cases newOrder : order.msgType = [68]
    next =>
      have sameType : order.anonymous.msgType = [68] := newOrder
      simp only [anonymous, newOrder, sameType, if_true, done]
    next =>
      have sameType : ¬ order.anonymous.msgType = [68] := newOrder
      simp only [anonymous, newOrder, sameType, if_false]

theorem foldl_receive_anonymous (type : ProtocolType) (referencePrice : Int)
    (rawPackets : List Bytes) (state : Benchmark) :
    (rawPackets.foldl (receive type referencePrice) state).anonymous =
      (rawPackets.map fun packet =>
        (ProtocolParser.parseInPlace type (some packet)).anonymous).foldl
          (fun current order => current.handle referencePrice order) state.anonymous := by
  induction rawPackets generalizing state with
  | nil => rfl
  | cons packet rest ih =>
    rw [List.foldl_cons, List.map_cons, List.foldl_cons, ih, handle_anonymous]
    rfl

end Benchmark

-- An order with the parts of its packets that carry no order data.
structure Encoded where
  order : WireOrder
  ouchClOrdId : Bytes
  ouchClOrdId_length : ouchClOrdId.length = 14
  timestampNs : Nat
  sbeClOrdIdNum : Nat
  header : SbeHeader
  timeInForce : UInt8

namespace Encoded

def packet (encoded : Encoded) : ProtocolType → Bytes
  | .fix => encoded.order.fixText
  | .ouch =>
    (encoded.order.ouchPacket encoded.ouchClOrdId encoded.ouchClOrdId_length
      encoded.timestampNs).bytes
  | .sbe => (encoded.order.sbePacket encoded.sbeClOrdIdNum).framed encoded.header encoded.timeInForce

theorem parse_packet (encoded : Encoded) (type : ProtocolType) :
    ∃ clOrdId, ProtocolParser.parseInPlace type (some (encoded.packet type)) =
      encoded.order.parsed clOrdId := by
  cases type with
  | fix => exact ⟨_, encoded.order.parse_fix⟩
  | ouch => exact ⟨_, encoded.order.parse_ouch _ _ _⟩
  | sbe => exact ⟨_, encoded.order.parse_sbe _ _ _⟩

theorem parse_anonymous (encoded : Encoded) (type : ProtocolType) :
    (ProtocolParser.parseInPlace type (some (encoded.packet type))).anonymous =
      encoded.order.parsed [] := by
  obtain ⟨clOrdId, parsed⟩ := encoded.parse_packet type
  rw [parsed]
  rfl

end Encoded

theorem run_anonymous (riskMgr : PreTradeRiskManager) (referencePrice : Int)
    (stream : List Encoded) (type : ProtocolType) :
    (Benchmark.run riskMgr referencePrice type
        (stream.map fun encoded => encoded.packet type)).anonymous =
      (stream.map fun encoded => encoded.order.parsed []).foldl
        (fun current order => current.handle referencePrice order)
        ({ riskMgr } : Benchmark).anonymous := by
  rw [Benchmark.run, Benchmark.foldl_receive_anonymous, List.map_map]
  congr 1
  apply List.map_congr_left
  intro encoded _
  exact encoded.parse_anonymous type

theorem protocols_functionally_equivalent :
    (∀ (encoded : Encoded) (type : ProtocolType),
      let parsed := ProtocolParser.parseInPlace type (some (encoded.packet type))
      parsed.msgType = ascii "D" ∧ parsed.msgTypeChar = 68 ∧
        parsed.symbol = encoded.order.symbol ∧ parsed.side = encoded.order.side ∧
        parsed.quantity = encoded.order.quantity ∧ parsed.price = encoded.order.priceScaled ∧
        parsed.seqNum = encoded.order.seqNum) ∧
      (∀ (riskMgr : PreTradeRiskManager) (referencePrice : Int) (stream : List Encoded)
        (type other : ProtocolType),
        let run := Benchmark.run riskMgr referencePrice type
          (stream.map fun encoded => encoded.packet type)
        let otherRun := Benchmark.run riskMgr referencePrice other
          (stream.map fun encoded => encoded.packet other)
        run.answers = otherRun.answers ∧
          run.trades.map TradeExecution.anonymous =
            otherRun.trades.map TradeExecution.anonymous) := by
  constructor
  next =>
    intro encoded type parsed
    obtain ⟨clOrdId, same⟩ := encoded.parse_packet type
    have msgType : ascii "D" = [68] := by decide +kernel
    have value : parsed = encoded.order.parsed clOrdId := same
    rw [value, msgType]
    exact ⟨rfl, rfl, rfl, rfl, rfl, rfl, rfl⟩
  next =>
    intro riskMgr referencePrice stream type other run otherRun
    have same : run.anonymous = otherRun.anonymous :=
      (run_anonymous riskMgr referencePrice stream type).trans
        (run_anonymous riskMgr referencePrice stream other).symm
    have answers : run.anonymous.answers = otherRun.anonymous.answers := by rw [same]
    have trades : run.anonymous.trades = otherRun.anonymous.trades := by rw [same]
    exact ⟨answers, trades⟩

end HftFixEngine.Arena
