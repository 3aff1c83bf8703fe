import HftFixEngine.Matching.ZeroAllocSpec
import Mathlib.Data.List.Induction

set_option autoImplicit false

namespace HftFixEngine.Matching

open Protocol Word Consume

variable {τ : Type}

namespace Aggressor

variable (aggressor : Aggressor τ) (start : Execution τ)

structure Reported (buffer : Nat → ZeroAllocTrade) (fills : List (BookOrder τ × Nat))
    (exec : Execution τ) (next : Nat → ZeroAllocTrade) : Prop where
  out : exec.outTrades = some next
  count : exec.tradesGenerated = min aggressor.maxTrades fills.length
  counter : exec.tradeCounter =
    if exec.tradesGenerated = 0 then start.tradeCounter
    else u64 (start.tradeCounter + exec.tradesGenerated)
  written : ∀ i < exec.tradesGenerated, ∃ fill, fills[i]? = some fill ∧
    next i = aggressor.writeTrade (buffer i) (u64 (start.tradeCounter + i + 1)) fill.1 fill.2
  untouched : ∀ i, exec.tradesGenerated ≤ i → next i = buffer i

variable {aggressor start}

theorem Reported.full {buffer next : Nat → ZeroAllocTrade} {fills : List (BookOrder τ × Nat)}
    {exec : Execution τ} (reported : Reported aggressor start buffer fills exec next)
    (full : aggressor.maxTrades ≤ fills.length) (fill : BookOrder τ × Nat) :
    Reported aggressor start buffer (fills ++ [fill]) (aggressor.record exec fill) next := by
  have count := reported.count
  have full' : ¬ exec.tradesGenerated < aggressor.maxTrades := by omega
  have same : aggressor.report exec fill.1 fill.2 = exec := by
    simp [report, reported.out, full']
  refine ⟨?_, ?_, ?_, ?_, ?_⟩ <;> simp only [record, same]
  next => exact reported.out
  next =>
    rw [count, List.length_append]
    omega
  next => exact reported.counter
  next =>
    intro i within
    obtain ⟨old, found, written⟩ := reported.written i within
    exact ⟨old, by rw [List.getElem?_append_left (by omega)]; exact found, written⟩
  next => exact reported.untouched

theorem Reported.push {buffer next : Nat → ZeroAllocTrade} {fills : List (BookOrder τ × Nat)}
    {exec : Execution τ} (reported : Reported aggressor start buffer fills exec next)
    (room : fills.length < aggressor.maxTrades) (fill : BookOrder τ × Nat) :
    Reported aggressor start buffer (fills ++ [fill]) (aggressor.record exec fill)
      (Function.update next fills.length (aggressor.writeTrade (buffer fills.length)
        (u64 (start.tradeCounter + fills.length + 1)) fill.1 fill.2)) := by
  have count : exec.tradesGenerated = fills.length := by
    rw [reported.count]
    omega
  have tick : u64 (exec.tradeCounter + 1) = u64 (start.tradeCounter + fills.length + 1) := by
    rw [reported.counter, count]
    split_ifs with none
    next => simp [none]
    next =>
      simp only [u64]
      omega
  have old : next fills.length = buffer fills.length := reported.untouched _ (by omega)
  refine ⟨?_, ?_, ?_, ?_, ?_⟩ <;>
    simp only [record, report, reported.out, count, room, if_true, tick, old]
  next =>
    rw [List.length_append, List.length_singleton]
    omega
  next => simp [Nat.add_assoc]
  next =>
    intro i within
    by_cases last : i = fills.length
    next =>
      subst last
      exact ⟨fill, by simp, by simp⟩
    next =>
      obtain ⟨earlier, found, written⟩ := reported.written i (by omega)
      refine ⟨earlier, ?_, ?_⟩
      next =>
        rw [List.getElem?_append_left (by omega)]
        exact found
      next =>
        rw [Function.update_of_ne last]
        exact written
  next =>
    intro i beyond
    rw [Function.update_of_ne (by omega)]
    exact reported.untouched i (by omega)

variable (aggressor start) in
theorem foldl_record_reported {buffer : Nat → ZeroAllocTrade} (out : start.outTrades = some buffer)
    (fresh : start.tradesGenerated = 0) (fills : List (BookOrder τ × Nat)) :
    ∃ next, Reported aggressor start buffer fills (fills.foldl aggressor.record start) next := by
  induction fills using List.reverseRecOn with
  | nil => exact ⟨buffer, out, by simp [fresh], by simp [fresh], by simp [fresh], by simp⟩
  | append_singleton fills fill ih =>
      obtain ⟨next, reported⟩ := ih
      rw [List.foldl_append]
      by_cases room : fills.length < aggressor.maxTrades
      next => exact ⟨_, reported.push room fill⟩
      next => exact ⟨next, reported.full (by omega) fill⟩

theorem Reported.view {β : Type} {buffer next : Nat → ZeroAllocTrade}
    {fills : List (BookOrder τ × Nat)} {exec : Execution τ}
    (reported : Reported aggressor start buffer fills exec next) (view : ZeroAllocTrade → β)
    (expected : BookOrder τ × Nat → β)
    (same : ∀ fill ∈ fills, ∀ old id,
      view (aggressor.writeTrade old id fill.1 fill.2) = expected fill) :
    (Slots.first next exec.tradesGenerated).map view =
      (fills.take exec.tradesGenerated).map expected := by
  have most : exec.tradesGenerated ≤ fills.length := by
    rw [reported.count]
    omega
  apply List.ext_getElem
  next => simp [most]
  next =>
    intro i within _
    have less : i < exec.tradesGenerated := by simpa using within
    obtain ⟨fill, found, written⟩ := reported.written i less
    obtain ⟨bound, value⟩ := List.getElem?_eq_some_iff.mp found
    simp only [List.getElem_map, List.getElem_take, Slots.first_getElem, written, value]
    exact same fill (value ▸ List.getElem_mem bound) _ _

theorem Reported.ids {buffer next : Nat → ZeroAllocTrade} {fills : List (BookOrder τ × Nat)}
    {exec : Execution τ} (reported : Reported aggressor start buffer fills exec next) :
    (Slots.first next exec.tradesGenerated).map ZeroAllocTrade.tradeId =
      (List.range exec.tradesGenerated).map fun i => u64 (start.tradeCounter + i + 1) := by
  rw [Slots.first, List.map_map]
  apply List.map_congr_left
  intro i member
  obtain ⟨fill, -, written⟩ := reported.written i (List.mem_range.mp member)
  simp [written, writeTrade]

variable (aggressor start) in
theorem foldl_record_unreported (out : start.outTrades = none)
    (fills : List (BookOrder τ × Nat)) :
    let exec := fills.foldl aggressor.record start
    exec.outTrades = none ∧ exec.tradesGenerated = start.tradesGenerated ∧
      exec.tradeCounter = start.tradeCounter := by
  induction fills generalizing start with
  | nil => exact ⟨out, rfl, rfl⟩
  | cons fill fills ih =>
      have same : aggressor.report start fill.1 fill.2 = start := by simp [report, out]
      have kept : (aggressor.record start fill).outTrades = none := by
        simpa only [record, same] using out
      have count : (aggressor.record start fill).tradesGenerated = start.tradesGenerated := by
        simp only [record, same]
      have counter : (aggressor.record start fill).tradeCounter = start.tradeCounter := by
        simp only [record, same]
      have later := ih _ kept
      rwa [count, counter] at later

end Aggressor

end HftFixEngine.Matching
