import HftFixEngine.Arena.ProtocolArena
import HftFixEngine.Engine.MatchingWorker
import HftFixEngine.Protocol.FieldScan
import Mathlib.Data.List.Induction

set_option autoImplicit false

namespace HftFixEngine.Protocol.FixParser

def typeValues (fields : List (Int × Bytes)) : List Bytes :=
  (fields.filter fun field => field.1 = 35).map Prod.snd

def lastType (types : List Bytes) : Bytes := types.getLast?.getD []

def lastTypeChar (types : List Bytes) : Option UInt8 :=
  (types.filter fun type => !type.isEmpty).getLast?.bind List.head?

theorem foldl_setField_msgType (fields : List (Int × Bytes)) :
    let order := fields.foldl (fun order field => setField order field.1 field.2) {}
    order.msgType = lastType (typeValues fields) ∧
      order.msgTypeChar = (lastTypeChar (typeValues fields)).getD 63 := by
  induction fields using List.reverseRecOn with
  | nil => exact ⟨rfl, rfl⟩
  | append_singleton fields field ih =>
    simp only [List.foldl_append, List.foldl_cons, List.foldl_nil]
    by_cases type : field.1 = 35
    next =>
      have values : typeValues (fields ++ [field]) = typeValues fields ++ [field.2] := by
        simp [typeValues, type]
      rw [values, setField, if_pos type]
      cases shape : field.2 with
      | nil =>
        have same : lastTypeChar (typeValues fields ++ [[]]) = lastTypeChar (typeValues fields) := by
          simp [lastTypeChar]
        rw [same]
        exact ⟨by simp [lastType], ih.2⟩
      | cons char rest => exact ⟨by simp [lastType], by simp [lastTypeChar]⟩
    next =>
      have values : typeValues (fields ++ [field]) = typeValues fields := by
        simp [typeValues, type]
      rw [values]
      have kept (order : ParsedOrder) :
          (setField order field.1 field.2).msgType = order.msgType ∧
            (setField order field.1 field.2).msgTypeChar = order.msgTypeChar := by
        rw [setField, if_neg type]
        split_ifs <;> exact ⟨rfl, rfl⟩
      rw [(kept _).1, (kept _).2]
      exact ih

theorem lastTypeChar_of_last {types : List Bytes} {char : UInt8} {rest : Bytes}
    (last : types.getLast? = some (char :: rest)) : lastTypeChar types = some char := by
  obtain ⟨before, rfl⟩ := List.getLast?_eq_some_iff.mp last
  simp [lastTypeChar]

end HftFixEngine.Protocol.FixParser

namespace HftFixEngine.Engine

open Protocol Word

-- The fields of a FIX payload; the length is passed on in 32 bits.
def fixTypes (bytes : Bytes) : List Bytes :=
  FixParser.typeValues (FixParser.scanFields (u32 bytes.length) (bytes.take (u32 bytes.length)))

structure SameRoute (protocol : ProtocolType) (payload : Option Bytes) : Prop where
  test : (ProtocolParser.parseInPlace protocol payload).msgTypeChar = 68 ↔
    (ProtocolParser.parseInPlace protocol payload).msgType = [68]
  routed : ∀ (ingress : Ingress) (latencyNs currentTs : Nat) (staleId : Bytes),
    let screening := ingress.screen protocol { payload, latencyNs, currentTs, staleId }
    screening.risk = some .approved → (screening.admitted = true ↔ screening.order.msgType = [68])

def TypesAgree : ProtocolType → Option Bytes → Prop
  | .fix, some bytes =>
    FixParser.lastTypeChar (fixTypes bytes) = some 68 → (fixTypes bytes).getLast? = some [68]
  | _, _ => True

theorem parseInPlace_fix_types (bytes : Bytes) :
    let order := ProtocolParser.parseInPlace .fix (some bytes)
    order.msgType = FixParser.lastType (fixTypes bytes) ∧
      order.msgTypeChar = (FixParser.lastTypeChar (fixTypes bytes)).getD 63 := by
  by_cases empty : bytes.length = 0
  next =>
    obtain rfl := List.length_eq_zero_iff.mp empty
    exact ⟨rfl, rfl⟩
  next =>
    have parsed : ProtocolParser.parseInPlace .fix (some bytes) =
        FixParser.parseInPlace bytes (u32 bytes.length) := by
      rw [ProtocolParser.parseInPlace, if_neg empty]
    rw [parsed, FixParser.parseInPlace, FixParser.run_eq_foldl_scanFields]
    exact FixParser.foldl_setField_msgType _

theorem test_iff_typesAgree (protocol : ProtocolType) (payload : Option Bytes) :
    ((ProtocolParser.parseInPlace protocol payload).msgTypeChar = 68 ↔
        (ProtocolParser.parseInPlace protocol payload).msgType = [68]) ↔
      TypesAgree protocol payload := by
  cases payload with
  | none => cases protocol <;> simp [ProtocolParser.parseInPlace, TypesAgree]
  | some bytes =>
    cases protocol with
    | ouch =>
      simp only [ProtocolParser.parseInPlace, TypesAgree, iff_true]
      split_ifs <;> simp [ProtocolParser.parseOuch]
    | sbe =>
      simp only [ProtocolParser.parseInPlace, TypesAgree, iff_true]
      split_ifs <;> simp [ProtocolParser.parseSbe]
    | fix =>
      obtain ⟨type, char⟩ := parseInPlace_fix_types bytes
      have charTest : (FixParser.lastTypeChar (fixTypes bytes)).getD 63 = 68 ↔
          FixParser.lastTypeChar (fixTypes bytes) = some 68 := by
        cases FixParser.lastTypeChar (fixTypes bytes) <;> simp
      have typeTest : FixParser.lastType (fixTypes bytes) = [68] ↔
          (fixTypes bytes).getLast? = some [68] := by
        unfold FixParser.lastType
        cases (fixTypes bytes).getLast? <;> simp
      rw [char, type, charTest, typeTest, TypesAgree]
      exact ⟨Iff.mp, fun agree => ⟨agree, FixParser.lastTypeChar_of_last⟩⟩

theorem sameRoute_iff (protocol : ProtocolType) (payload : Option Bytes) :
    SameRoute protocol payload ↔ TypesAgree protocol payload := by
  rw [← test_iff_typesAgree]
  constructor
  next =>
    intro route
    exact route.test
  next =>
    intro test
    refine ⟨test, ?_⟩
    intro ingress latencyNs currentTs staleId screening approved
    have order : screening.order =
        { ProtocolParser.received protocol payload staleId with latencyNs } :=
      ingress.screen_order protocol { payload, latencyNs, currentTs, staleId }
    simp only [Screening.admitted, approved, order, decide_true, Bool.true_and, decide_eq_true_eq]
    exact test

-- A type of two characters: the worker takes it for a new order, the arena does not.
def twoCharacterType : Bytes := ascii "35=DX|54=1|38=100|44=35.00|"

theorem sameRoute_broken_twoCharacterType :
    (MatchingWorker.step { protocolType := .fix, expectedMessages := 5 }
        { payload := some twoCharacterType, latencyNs := 0, currentTs := 0 }).submitted.length = 1 ∧
      (Arena.Benchmark.receive .fix 35000000 { riskMgr := {} }
        twoCharacterType).matchingEngine.books = [] ∧
      ¬ SameRoute .fix (some twoCharacterType) := by
  refine ⟨by decide +kernel, by decide +kernel, ?_⟩
  intro route
  have type := route.test.mp (by decide +kernel)
  exact absurd type (by decide +kernel)

end HftFixEngine.Engine
