import HftFixEngine.Engine.HftOrderBookEngine
import Mathlib.Data.List.Induction

set_option autoImplicit false

namespace HftFixEngine.Engine

open Protocol Matching Word Consume

def OneInstrument (execution : ParsedOrder × ParsedOrder) : Prop :=
  execution.1.symbol = execution.2.symbol ∧
    (execution.1.side = 1 ∧ execution.2.side = 2 ∨ execution.1.side = 2 ∧ execution.2.side = 1)

def MeetsOwnSymbol (engine : HftOrderBookEngine) (packet : Packet) : Prop :=
  let screening := engine.ingress.screen engine.protocolType packet
  screening.admitted = true → ∀ d, Direction.ofSide screening.order.side = some d →
    ∀ before resting after,
      engine.session.book.reach d screening.order = before ++ resting :: after →
      (before.map BookOrder.remainingQty).sum < toUint32 screening.order.quantity →
      resting.tag.symbol = screening.order.symbol

-- The tag of a resting order is the order it came from.
structure EngineOk (engine : HftOrderBookEngine) : Prop where
  sessionOk : SessionOk engine.session
  sides : ∀ d, ∀ resting ∈ (engine.session.book.own d).orders, resting.tag.side = resting.side

namespace HftOrderBookEngine

variable {engine : HftOrderBookEngine} (ok : EngineOk engine)

include ok

theorem fill_oneInstrument_iff {order : ParsedOrder} {d : Direction}
    (side : Direction.ofSide order.side = some d) {fill : BookOrder ParsedOrder × Nat}
    (made : fill ∈ (engine.session.book.outcome d order).fills) :
    OneInstrument (fill.1.tag, order) ↔ fill.1.tag.symbol = order.symbol := by
  have inside := (mem_of_mem_fills _ _ fill made).1
  rw [ZeroAllocHftOrderBook.opposite_eq_own_flip] at inside
  have other : fill.1.tag.side = d.flip.code := by
    rw [ok.sides d.flip fill.1 inside]
    exact ((ok.sessionOk.bookOk.sides d.flip).mem_orders inside).2
  simp only [OneInstrument, other, Direction.ofSide_eq_some.mp side, d.code_flip, and_true]

theorem submit_executions_iff (order : ParsedOrder) (currentTs : Nat) :
    (∀ execution ∈ (engine.submit order currentTs).executions, OneInstrument execution) ↔
      (∀ execution ∈ engine.executions, OneInstrument execution) ∧
        ∀ d, Direction.ofSide order.side = some d → ∀ before resting after,
          engine.session.book.reach d order = before ++ resting :: after →
          (before.map BookOrder.remainingQty).sum < toUint32 order.quantity →
          resting.tag.symbol = order.symbol := by
  simp only [submit, List.forall_mem_append, List.forall_mem_map]
  refine and_congr_right fun _ => ?_
  cases side : Direction.ofSide order.side with
  | none =>
      have ignored := engine.session.book.submitOrder_of_other order order
        (some engine.session.tradeBatch) tradeBatchSize engine.session.tradeCounter currentTs side
      simp [Session.submit, ignored]
  | some d =>
      obtain ⟨swept, effect⟩ := engine.session.book.submitOrder_effect order order
        (some engine.session.tradeBatch) tradeBatchSize engine.session.tradeCounter currentTs side
        (ok.sessionOk.bookOk.oppositeOk d)
      have fills : (engine.session.submit ⟨order, order, currentTs⟩).fills =
          (engine.session.book.outcome d order).fills := effect.fills
      rw [fills]
      calc (∀ fill ∈ (engine.session.book.outcome d order).fills, OneInstrument (fill.1.tag, order))
          ↔ ∀ fill ∈ (engine.session.book.outcome d order).fills,
              fill.1.tag.symbol = order.symbol :=
            forall₂_congr fun _ made => fill_oneInstrument_iff ok side made
        _ ↔ _ := forall_fills_iff (p := fun resting : BookOrder ParsedOrder =>
            resting.tag.symbol = order.symbol) _ _
        _ ↔ _ := by
            constructor
            next =>
              rintro own e same
              obtain rfl := Option.some.inj same
              exact own
            next =>
              intro own
              exact own d rfl

theorem submit_ok (order : ParsedOrder) (currentTs : Nat) :
    EngineOk (engine.submit order currentTs) where
  sessionOk := Session.next_ok ok.sessionOk _
  sides := ok.sessionOk.bookOk.forall_orders (p := fun resting : BookOrder ParsedOrder =>
    resting.tag.side = resting.side) order order _ _ _ _ ok.sides (fun _ _ same => same)
    (fun _ _ => rfl)

theorem screened_ok (packet : Packet) : EngineOk (engine.screened packet) :=
  ⟨ok.sessionOk, ok.sides⟩

theorem step_ok (packet : Packet) : EngineOk (engine.step packet) := by
  have screened := screened_ok ok packet
  rcases engine.step_cases packet with ⟨-, step⟩ | ⟨telemetry, step⟩
  next => exact step ▸ screened
  next =>
    split at step
    next =>
      have submitted := submit_ok screened
        (engine.ingress.screen engine.protocolType packet).order packet.currentTs
      rw [step]
      exact ⟨submitted.sessionOk, submitted.sides⟩
    next =>
      rw [step]
      exact ⟨screened.sessionOk, screened.sides⟩

theorem step_executions_iff (packet : Packet) :
    (∀ execution ∈ (engine.step packet).executions, OneInstrument execution) ↔
      (∀ execution ∈ engine.executions, OneInstrument execution) ∧
        MeetsOwnSymbol engine packet := by
  unfold MeetsOwnSymbol
  rcases engine.step_cases packet with ⟨duplicate, step⟩ | ⟨telemetry, step⟩
  next =>
    rw [step]
    simp [Screening.not_admitted_of_duplicate duplicate, screened]
  next =>
    split at step
    next admitted =>
      simp only [step, admitted, true_implies]
      exact submit_executions_iff (screened_ok ok packet) _ _
    next refused => simp [step, refused, screened]

end HftOrderBookEngine

theorem engine_run_ok (protocol : ProtocolType) (packets : List Packet) :
    EngineOk (HftOrderBookEngine.run protocol packets) := by
  unfold HftOrderBookEngine.run
  refine List.foldlRecOn packets _ ?_ fun engine ok packet _ =>
    HftOrderBookEngine.step_ok ok packet
  refine ⟨Session.after_ok MatchingEngine.defaultSymbol [], ?_⟩
  intro d resting member
  cases d <;> exact absurd member List.not_mem_nil

theorem executions_oneInstrument_iff (protocol : ProtocolType) (packets : List Packet) :
    (∀ execution ∈ (HftOrderBookEngine.run protocol packets).executions,
        OneInstrument execution) ↔
      ∀ before packet after, packets = before ++ packet :: after →
        MeetsOwnSymbol (HftOrderBookEngine.run protocol before) packet := by
  induction packets using List.reverseRecOn with
  | nil => simp [HftOrderBookEngine.run]
  | append_singleton packets packet ih =>
      rw [HftOrderBookEngine.run_append,
        HftOrderBookEngine.step_executions_iff (engine_run_ok protocol packets), ih]
      constructor
      next =>
        rintro ⟨earlier, last⟩ before other after split
        rcases List.eq_nil_or_concat after with rfl | ⟨initial, final, rfl⟩
        next =>
          obtain ⟨rfl, same⟩ := List.append_inj' split rfl
          obtain rfl := (List.cons.inj same).1
          exact last
        next =>
          rw [List.concat_eq_append, ← List.cons_append, ← List.append_assoc] at split
          exact earlier before other initial (List.append_inj' split rfl).1
      next =>
        intro all
        refine ⟨?_, all packets packet [] rfl⟩
        rintro before other after rfl
        exact all before other (after ++ [packet]) (by simp)

def tenOfSymbol (seqNum : Nat) (side : UInt8) (symbol : Bytes) : Packet :=
  { payload := some (SbeNewOrderSinglePacket.bytes ⟨seqNum, 7, 35000000, 10, side, symbol⟩)
    latencyNs := 0
    currentTs := 0 }

-- A bid for PETR4 and an offer of VALE3 at one price trade with each other.
theorem executions_cross_symbols :
    (HftOrderBookEngine.run .sbe [tenOfSymbol 1 1 [80, 69, 84, 82, 52],
        tenOfSymbol 2 2 [86, 65, 76, 69, 51]]).executions.map
          (fun execution => (execution.1.symbol, execution.2.symbol)) =
        [([80, 69, 84, 82, 52], [86, 65, 76, 69, 51])] ∧
      ¬ ∀ execution ∈ (HftOrderBookEngine.run .sbe [tenOfSymbol 1 1 [80, 69, 84, 82, 52],
        tenOfSymbol 2 2 [86, 65, 76, 69, 51]]).executions, OneInstrument execution := by
  have crossed : (HftOrderBookEngine.run .sbe [tenOfSymbol 1 1 [80, 69, 84, 82, 52],
        tenOfSymbol 2 2 [86, 65, 76, 69, 51]]).executions.map
          (fun execution => (execution.1.symbol, execution.2.symbol)) =
        [([80, 69, 84, 82, 52], [86, 65, 76, 69, 51])] := by decide +kernel
  refine ⟨crossed, ?_⟩
  intro all
  have apart : ∀ symbols ∈ [(([80, 69, 84, 82, 52] : Bytes), ([86, 65, 76, 69, 51] : Bytes))],
      symbols.1 = symbols.2 := by
    rw [← crossed, List.forall_mem_map]
    exact fun execution made => (all execution made).1
  simp at apart

end HftFixEngine.Engine
