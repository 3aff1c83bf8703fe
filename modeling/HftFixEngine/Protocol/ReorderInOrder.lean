import HftFixEngine.Protocol.ReorderWaiting
import Mathlib.Data.List.Induction
import Mathlib.Data.List.Infix
import Mathlib.Data.List.Perm.Basic

set_option autoImplicit false

namespace HftFixEngine.Protocol

open Word SequenceReorderBuffer

structure Draining (capacity high : Nat) (start drain : Drain) (out : List Bytes) : Prop where
  outEmitted : drain.outEmitted = start.outEmitted ++ out
  drained : drain.drained = start.drained + out.length
  expectedSeq : drain.buffer.expectedSeq = start.buffer.expectedSeq + out.length
  numbered : Numbered (fun seqNum bytes => waiting capacity start.buffer.ring seqNum = some bytes)
    start.buffer.expectedSeq out
  rest : ∀ seqNum, drain.buffer.expectedSeq ≤ seqNum →
    waiting capacity drain.buffer.ring seqNum = waiting capacity start.buffer.ring seqNum
  slots : SlotsOk capacity drain.buffer.expectedSeq high drain.buffer.ring
  bounded : drain.buffer.expectedSeq ≤ high

section Drain

variable {capacity high : Nat} (powerOfTwo : capacity.isPowerOfTwo) (noWrap : high < 2 ^ 64)

include powerOfTwo noWrap

theorem Draining.drainSlot {start drain : Drain} {out : List Bytes}
    (so_far : Draining capacity high start drain out)
    (short : high ≤ start.buffer.expectedSeq + capacity) (due : slotDue capacity drain = true) :
    Draining capacity high start (drainSlot capacity drain)
      (out ++ [(drain.buffer.ring (index capacity drain.buffer.expectedSeq)).text]) := by
  have expectedSeq := so_far.expectedSeq
  have found := slotDue_iff.mp due
  obtain ⟨-, number, -⟩ := waiting_eq_some.mp found
  obtain ⟨least, most⟩ := so_far.slots.waiting_bounds powerOfTwo found
  have next : u64 (drain.buffer.expectedSeq + 1) = drain.buffer.expectedSeq + 1 :=
    Nat.mod_eq_of_lt (by omega)
  constructor
  case outEmitted => simp [SequenceReorderBuffer.drainSlot, so_far.outEmitted]
  case drained => simp [SequenceReorderBuffer.drainSlot, so_far.drained, Nat.add_assoc]
  case expectedSeq =>
    simp only [SequenceReorderBuffer.drainSlot, next, List.length_append, List.length_singleton]
    omega
  case numbered =>
    refine so_far.numbered.append (Numbered.singleton ?_)
    rw [← expectedSeq, ← so_far.rest _ (Nat.le_refl _)]
    exact found
  case rest =>
    intro seqNum later
    simp only [SequenceReorderBuffer.drainSlot, next] at later ⊢
    refine (congrFun (waiting_update powerOfTwo ?_ so_far.slots ⟨least, most⟩ ?_) seqNum).trans ?_
    next => omega
    next => exact number
    next =>
      rw [Function.update_of_ne (by omega)]
      exact so_far.rest seqNum (by omega)
  case slots =>
    simp only [SequenceReorderBuffer.drainSlot, next]
    exact so_far.slots.clear powerOfTwo rfl
  case bounded =>
    simp only [SequenceReorderBuffer.drainSlot, next]
    omega

theorem drainBuffered_spec (buffer : SequenceReorderBuffer) (outEmitted : List Bytes)
    (slots : SlotsOk capacity buffer.expectedSeq high buffer.ring)
    (bounded : buffer.expectedSeq ≤ high) (short : high ≤ buffer.expectedSeq + capacity) :
    ∃ out, Draining capacity high { buffer, outEmitted }
        (buffer.drainBuffered capacity outEmitted) out ∧
      slotDue capacity (buffer.drainBuffered capacity outEmitted) = false := by
  let start : Drain := { buffer, outEmitted }
  have begin : ∃ out, Draining capacity high start start out :=
    ⟨[], by simp, by simp, by simp, Numbered.nil, fun _ _ => rfl, slots, bounded⟩
  have step : ∀ drain, (∃ out, Draining capacity high start drain out) →
      slotDue capacity drain = true →
      ∃ out, Draining capacity high start (drainSlot capacity drain) out := by
    rintro drain ⟨out, so_far⟩ due
    exact ⟨_, so_far.drainSlot powerOfTwo noWrap short due⟩
  have less : ∀ drain, (∃ out, Draining capacity high start drain out) →
      slotDue capacity drain = true →
      high - (drainSlot capacity drain).buffer.expectedSeq < high - drain.buffer.expectedSeq := by
    rintro drain ⟨out, so_far⟩ due
    have later := so_far.drainSlot powerOfTwo noWrap short due
    have bounded := later.bounded
    have before := so_far.expectedSeq
    have after := later.expectedSeq
    simp only [List.length_append, List.length_singleton] at after
    omega
  obtain ⟨out, done⟩ := Loop.run_invariant _ step capacity begin
  refine ⟨out, done, ?_⟩
  exact Loop.run_exits _ (fun drain => high - drain.buffer.expectedSeq) step less capacity begin
    (by simp only; omega)

end Drain

def BufferOk (capacity : Nat) (buffer : SequenceReorderBuffer) : Prop :=
  SlotsOk capacity (buffer.expectedSeq + 1) (buffer.expectedSeq + capacity) buffer.ring

def Known (capacity : Nat) (buffer : SequenceReorderBuffer) (arriving : Nat) (bytes : Bytes)
    (seqNum : Nat) (text : Bytes) : Prop :=
  seqNum = arriving ∧ text = bytes ∨ waiting capacity buffer.ring seqNum = some text

structure PushEffect (capacity : Nat) (buffer : SequenceReorderBuffer) (arriving : Nat)
    (bytes : Bytes) (next : SequenceReorderBuffer) (out : List Bytes) : Prop where
  expectedSeq : next.expectedSeq = buffer.expectedSeq + out.length
  numbered : Numbered (Known capacity buffer arriving bytes) buffer.expectedSeq out
  known : ∀ seqNum text, waiting capacity next.ring seqNum = some text →
    Known capacity buffer arriving bytes seqNum text
  kept : ∀ seqNum text, waiting capacity buffer.ring seqNum = some text →
    seqNum < next.expectedSeq ∨ ∃ text, waiting capacity next.ring seqNum = some text
  taken : arriving < buffer.expectedSeq + capacity →
    arriving < next.expectedSeq ∨ ∃ text, waiting capacity next.ring arriving = some text
  ok : BufferOk capacity next

section Push

variable {capacity : Nat} {buffer : SequenceReorderBuffer} {arriving : Nat} {bytes : Bytes}

theorem PushEffect.dropped (ok : BufferOk capacity buffer) {next : SequenceReorderBuffer}
    (expectedSeq : next.expectedSeq = buffer.expectedSeq) (ring : next.ring = buffer.ring)
    (outside : arriving < buffer.expectedSeq ∨ buffer.expectedSeq + capacity ≤ arriving) :
    PushEffect capacity buffer arriving bytes next [] where
  expectedSeq := expectedSeq
  numbered := Numbered.nil
  known seqNum text found := Or.inr (ring ▸ found)
  kept seqNum text found := Or.inr ⟨text, ring.symm ▸ found⟩
  taken inside := Or.inl (by omega)
  ok := by
    unfold BufferOk at ok ⊢
    rw [expectedSeq, ring]
    exact ok

variable (powerOfTwo : capacity.isPowerOfTwo)

include powerOfTwo

theorem PushEffect.stored (ok : BufferOk capacity buffer)
    (inside : buffer.expectedSeq < arriving ∧ arriving < buffer.expectedSeq + capacity)
    {slot : ReorderSlot} (number : slot.seqNum = arriving) (occupied : slot.occupied = true)
    (text : slot.text = bytes) {next : SequenceReorderBuffer}
    (expectedSeq : next.expectedSeq = buffer.expectedSeq)
    (ring : next.ring = Function.update buffer.ring (index capacity arriving) slot) :
    PushEffect capacity buffer arriving bytes next [] := by
  have view : waiting capacity next.ring =
      Function.update (waiting capacity buffer.ring) arriving (some bytes) := by
    rw [ring, waiting_update powerOfTwo (by omega) ok inside number, occupied, text, if_pos rfl]
  constructor
  case expectedSeq => exact expectedSeq
  case numbered => exact Numbered.nil
  case known =>
    intro seqNum other found
    by_cases same : seqNum = arriving
    next =>
      rw [view, same, Function.update_self] at found
      exact Or.inl ⟨same, (Option.some.inj found).symm⟩
    next =>
      rw [view, Function.update_of_ne same] at found
      exact Or.inr found
  case kept =>
    intro seqNum other found
    by_cases same : seqNum = arriving
    next => exact Or.inr ⟨bytes, by rw [view, same, Function.update_self]⟩
    next => exact Or.inr ⟨other, by rw [view, Function.update_of_ne same, found]⟩
  case taken => exact fun _ => Or.inr ⟨bytes, by rw [view, Function.update_self]⟩
  case ok =>
    unfold BufferOk
    rw [expectedSeq, ring]
    exact ok.store powerOfTwo inside number

-- The slot in turn is empty when the drain has stopped, so every number left is beyond it.
theorem SequenceReorderBuffer.SlotsOk.beyond {high : Nat} {drain : Drain}
    (slots : SlotsOk capacity drain.buffer.expectedSeq high drain.buffer.ring)
    (stopped : slotDue capacity drain = false) :
    SlotsOk capacity (drain.buffer.expectedSeq + 1) high drain.buffer.ring := by
  intro i within occupied
  obtain ⟨own, least, most⟩ := slots i within occupied
  refine ⟨own, ?_, most⟩
  by_contra lowest
  have same : (drain.buffer.ring i).seqNum = drain.buffer.expectedSeq := by omega
  have cell : index capacity drain.buffer.expectedSeq = i := by
    rw [index_eq_mod powerOfTwo, ← same, own]
  simp [slotDue, cell, occupied, same] at stopped

theorem Draining.effect {outEmitted out : List Bytes} {drain : Drain}
    (done : Draining capacity (buffer.expectedSeq + capacity)
      { buffer := { buffer with expectedSeq := buffer.expectedSeq + 1 }, outEmitted } drain out)
    (stopped : slotDue capacity drain = false) :
    PushEffect capacity buffer buffer.expectedSeq bytes drain.buffer (bytes :: out) := by
  have expectedSeq := done.expectedSeq
  simp only at expectedSeq
  constructor
  case expectedSeq =>
    rw [expectedSeq, List.length_cons]
    omega
  case numbered =>
    exact Numbered.append (Numbered.singleton (Or.inl ⟨rfl, rfl⟩))
      (done.numbered.imp fun _ _ found => Or.inr found)
  case known =>
    intro seqNum text found
    have bounds := done.slots.waiting_bounds powerOfTwo found
    exact Or.inr ((done.rest seqNum bounds.1).symm.trans found)
  case kept =>
    intro seqNum text found
    by_cases out_already : seqNum < drain.buffer.expectedSeq
    next => exact Or.inl out_already
    next => exact Or.inr ⟨text, (done.rest seqNum (by omega)).trans found⟩
  case taken => exact fun _ => Or.inl (by omega)
  case ok =>
    intro i within occupied
    obtain ⟨own, least, most⟩ := done.slots.beyond powerOfTwo stopped i within occupied
    exact ⟨own, least, by omega⟩

end Push

structure PushCall where
  seqNum : Nat
  payload : Option Bytes
  len : Nat

def PushCall.Carries (call : PushCall) (bytes : Bytes) : Prop :=
  call.payload = some bytes ∧ call.len = bytes.length ∧ 0 < bytes.length ∧ bytes.length ≤ 511

structure Reordering where
  buffer : SequenceReorderBuffer
  outEmitted : List Bytes := []
  returned : Nat := 0

namespace Reordering

def push (capacity : Nat) (state : Reordering) (call : PushCall) : Reordering :=
  let (emittedCount, buffer, outEmitted) :=
    state.buffer.push capacity call.seqNum call.payload call.len state.outEmitted
  { buffer, outEmitted, returned := state.returned + emittedCount }

def run (capacity initialExpected : Nat) (calls : List PushCall) : Reordering :=
  calls.foldl (push capacity) { buffer := { expectedSeq := initialExpected } }

theorem run_append (capacity initialExpected : Nat) (calls : List PushCall) (call : PushCall) :
    run capacity initialExpected (calls ++ [call]) =
      (run capacity initialExpected calls).push capacity call := by
  simp [run]

end Reordering

theorem store_text (slot : ReorderSlot) (seqNum : Nat) {bytes : Bytes} {len : Nat}
    (readable : len ≤ bytes.length) (positive : 0 < len) (short : len ≤ 511) :
    (slot.store seqNum (some bytes) len).text = bytes.take len := by
  have fits : min len maxPayloadLen = len := Nat.min_eq_left (by simp only [maxPayloadLen]; omega)
  have copied := Slots.first_overwrite slot.payload (bytes.take len)
  rw [List.length_take, Nat.min_eq_left readable] at copied
  simp only [ReorderSlot.text, ReorderSlot.store, fits, positive, if_true]
  rw [Slots.first_update_of_le _ (Nat.le_refl _), copied]

theorem push_effect {capacity : Nat} (powerOfTwo : capacity.isPowerOfTwo) {state : Reordering}
    (ok : BufferOk capacity state.buffer)
    (noWrap : state.buffer.expectedSeq + capacity < 2 ^ 64) {call : PushCall} {bytes : Bytes}
    (carries : call.Carries bytes) :
    ∃ out, (state.push capacity call).outEmitted = state.outEmitted ++ out ∧
      (state.push capacity call).returned = state.returned + out.length ∧
      PushEffect capacity state.buffer call.seqNum bytes (state.push capacity call).buffer out := by
  obtain ⟨payload, len, positive, short⟩ := carries
  have size_pos := Nat.pos_of_isPowerOfTwo powerOfTwo
  have window : u64 (state.buffer.expectedSeq + capacity) = state.buffer.expectedSeq + capacity :=
    Nat.mod_eq_of_lt noWrap
  simp only [Reordering.push, SequenceReorderBuffer.push, payload, len, window, positive, if_true]
  split
  next turn =>
    have next : u64 (state.buffer.expectedSeq + 1) = state.buffer.expectedSeq + 1 :=
      Nat.mod_eq_of_lt (by omega)
    simp only [next, List.take_length, turn]
    obtain ⟨out, done, stopped⟩ := drainBuffered_spec powerOfTwo noWrap
      { state.buffer with expectedSeq := state.buffer.expectedSeq + 1 }
      (state.outEmitted ++ [bytes]) ok
      (by simp only; omega) (by simp only; omega)
    refine ⟨bytes :: out, ?_, ?_, done.effect powerOfTwo stopped⟩
    next => simpa using done.outEmitted
    next =>
      rw [done.drained]
      simp [Nat.add_comm]
  next =>
    split
    next =>
      split
      next ahead inside =>
        refine ⟨[], by simp, by simp, ?_⟩
        have text := store_text (state.buffer.ring (index capacity call.seqNum)) call.seqNum
          (Nat.le_refl bytes.length) positive short
        rw [List.take_length] at text
        exact PushEffect.stored powerOfTwo ok ⟨ahead, inside⟩ rfl rfl text rfl rfl
      next beyond =>
        exact ⟨[], by simp, by simp, PushEffect.dropped ok rfl rfl (Or.inr (by omega))⟩
    next other late =>
      exact ⟨[], by simp, by simp, PushEffect.dropped ok rfl rfl (Or.inl (by omega))⟩

def Pushed (calls : List PushCall) (seqNum : Nat) (bytes : Bytes) : Prop :=
  ∃ call ∈ calls, call.seqNum = seqNum ∧ call.payload = some bytes

-- The end of the window never leaves the 64 bits.
def NoWrap (capacity initialExpected : Nat) (calls : List PushCall) : Prop :=
  ∀ before, before <+: calls →
    (Reordering.run capacity initialExpected before).buffer.expectedSeq + capacity < 2 ^ 64

def InWindow (capacity initialExpected : Nat) (calls : List PushCall) : Prop :=
  ∀ before call, before ++ [call] <+: calls →
    call.seqNum < (Reordering.run capacity initialExpected before).buffer.expectedSeq + capacity

structure ReorderingOk (capacity initialExpected : Nat) (calls : List PushCall)
    (state : Reordering) : Prop where
  buffer : BufferOk capacity state.buffer
  expectedSeq : state.buffer.expectedSeq = initialExpected + state.outEmitted.length
  numbered : Numbered (Pushed calls) initialExpected state.outEmitted
  waiting : ∀ seqNum bytes, waiting capacity state.buffer.ring seqNum = some bytes →
    Pushed calls seqNum bytes
  returned : state.returned = state.outEmitted.length

section Run

variable {capacity initialExpected : Nat} {calls : List PushCall} {call : PushCall}

theorem Pushed.append {seqNum : Nat} {bytes : Bytes} (pushed : Pushed calls seqNum bytes) :
    Pushed (calls ++ [call]) seqNum bytes := by
  obtain ⟨earlier, member, same⟩ := pushed
  exact ⟨earlier, List.mem_append_left _ member, same⟩

theorem NoWrap.of_append (noWrap : NoWrap capacity initialExpected (calls ++ [call])) :
    NoWrap capacity initialExpected calls :=
  fun before early => noWrap before (early.trans (List.prefix_append _ _))

theorem InWindow.of_append (inWindow : InWindow capacity initialExpected (calls ++ [call])) :
    InWindow capacity initialExpected calls :=
  fun before other early => inWindow before other (early.trans (List.prefix_append _ _))

theorem ReorderingOk.push {state : Reordering} {bytes : Bytes} {out : List Bytes}
    (ok : ReorderingOk capacity initialExpected calls state) (payload : call.payload = some bytes)
    (outEmitted : (state.push capacity call).outEmitted = state.outEmitted ++ out)
    (returned : (state.push capacity call).returned = state.returned + out.length)
    (effect : PushEffect capacity state.buffer call.seqNum bytes (state.push capacity call).buffer
      out) :
    ReorderingOk capacity initialExpected (calls ++ [call]) (state.push capacity call) := by
  have known : ∀ seqNum text, Known capacity state.buffer call.seqNum bytes seqNum text →
      Pushed (calls ++ [call]) seqNum text := by
    rintro seqNum text (⟨rfl, rfl⟩ | found)
    next => exact ⟨call, by simp, rfl, payload⟩
    next => exact (ok.waiting seqNum text found).append
  constructor
  case buffer => exact effect.ok
  case expectedSeq =>
    rw [effect.expectedSeq, ok.expectedSeq, outEmitted, List.length_append, Nat.add_assoc]
  case numbered =>
    rw [outEmitted]
    refine (ok.numbered.imp fun _ _ pushed => pushed.append).append ?_
    rw [← ok.expectedSeq]
    exact effect.numbered.imp known
  case waiting => exact fun seqNum text found => known seqNum text (effect.known seqNum text found)
  case returned => rw [returned, ok.returned, outEmitted, List.length_append]

variable (powerOfTwo : capacity.isPowerOfTwo)

include powerOfTwo

theorem run_reorderingOk (carries : ∀ call ∈ calls, ∃ bytes, call.Carries bytes)
    (noWrap : NoWrap capacity initialExpected calls) :
    ReorderingOk capacity initialExpected calls (Reordering.run capacity initialExpected calls) := by
  induction calls using List.reverseRecOn with
  | nil =>
      refine ⟨?_, by simp [Reordering.run], Numbered.nil, ?_, rfl⟩
      next =>
        intro i _ occupied
        cases occupied
      next =>
        intro seqNum bytes found
        cases (waiting_eq_some.mp found).1
  | append_singleton calls call ih =>
      have before := ih (fun other member => carries other (List.mem_append_left _ member))
        noWrap.of_append
      have room := noWrap calls (List.prefix_append _ _)
      obtain ⟨bytes, brings⟩ := carries call (by simp)
      obtain ⟨out, outEmitted, returned, effect⟩ :=
        push_effect powerOfTwo before.buffer room brings
      rw [Reordering.run_append]
      exact before.push brings.1 outEmitted returned effect

theorem run_kept (carries : ∀ call ∈ calls, ∃ bytes, call.Carries bytes)
    (noWrap : NoWrap capacity initialExpected calls)
    (inWindow : InWindow capacity initialExpected calls) :
    let buffer := (Reordering.run capacity initialExpected calls).buffer
    ∀ call ∈ calls, call.seqNum < buffer.expectedSeq ∨
      ∃ text, waiting capacity buffer.ring call.seqNum = some text := by
  induction calls using List.reverseRecOn with
  | nil => simp
  | append_singleton calls call ih =>
      have earlier : ∀ other ∈ calls, ∃ bytes, other.Carries bytes :=
        fun other member => carries other (List.mem_append_left _ member)
      have before := run_reorderingOk powerOfTwo earlier noWrap.of_append
      have room := noWrap calls (List.prefix_append _ _)
      obtain ⟨bytes, brings⟩ := carries call (by simp)
      obtain ⟨out, -, -, effect⟩ := push_effect powerOfTwo before.buffer room brings
      rw [Reordering.run_append]
      intro buffer other member
      rcases List.mem_append.mp member with old | new
      next =>
        rcases ih earlier noWrap.of_append inWindow.of_append other old with gone | ⟨text, found⟩
        next =>
          have advanced := effect.expectedSeq
          exact Or.inl (by simp only [buffer]; omega)
        next => exact effect.kept other.seqNum text found
      next =>
        obtain rfl := List.mem_singleton.mp new
        exact effect.taken (inWindow calls other List.prefix_rfl)

theorem run_complete (carries : ∀ call ∈ calls, ∃ bytes, call.Carries bytes)
    (noWrap : NoWrap capacity initialExpected calls)
    (inWindow : InWindow capacity initialExpected calls) {n : Nat}
    (permutation : (calls.map PushCall.seqNum).Perm (List.range' initialExpected n)) :
    (Reordering.run capacity initialExpected calls).outEmitted.length = n := by
  have ok := run_reorderingOk powerOfTwo carries noWrap
  have kept := run_kept powerOfTwo carries noWrap inWindow
  have expectedSeq := ok.expectedSeq
  have numbers : ∀ seqNum, (∃ call ∈ calls, call.seqNum = seqNum) ↔
      initialExpected ≤ seqNum ∧ seqNum < initialExpected + n := by
    intro seqNum
    rw [← List.mem_range'_1, ← permutation.mem_iff, List.mem_map]
  generalize Reordering.run capacity initialExpected calls = final at ok kept expectedSeq
  rcases Nat.lt_trichotomy final.outEmitted.length n with short | same | long
  next =>
    -- the expected number was pushed, so it would still wait
    obtain ⟨call, member, number⟩ := (numbers final.buffer.expectedSeq).mpr ⟨by omega, by omega⟩
    rcases kept call member with gone | ⟨text, found⟩
    next => omega
    next =>
      rw [number] at found
      have bounds := ok.buffer.waiting_bounds powerOfTwo found
      omega
  next => exact same
  next =>
    -- a number past the last one was never pushed
    obtain ⟨call, member, number, -⟩ := ok.numbered n _ (List.getElem?_eq_getElem long)
    have bounds := (numbers (initialExpected + n)).mp ⟨call, member, number⟩
    omega

end Run

theorem emitted_in_order {capacity : Nat} (powerOfTwo : capacity.isPowerOfTwo)
    (initialExpected : Nat) (calls : List PushCall)
    (carries : ∀ call ∈ calls, ∃ bytes, call.Carries bytes)
    (noWrap : NoWrap capacity initialExpected calls) :
    let final := Reordering.run capacity initialExpected calls
    final.buffer.expectedSeq = initialExpected + final.outEmitted.length ∧
      (∀ i bytes, final.outEmitted[i]? = some bytes →
        ∃ call ∈ calls, call.seqNum = initialExpected + i ∧ call.payload = some bytes) ∧
      final.returned = final.outEmitted.length ∧
      ∀ n, (calls.map PushCall.seqNum).Perm (List.range' initialExpected n) →
        InWindow capacity initialExpected calls → final.outEmitted.length = n := by
  have ok := run_reorderingOk powerOfTwo carries noWrap
  refine ⟨ok.expectedSeq, ok.numbered, ok.returned, ?_⟩
  intro n permutation inWindow
  exact run_complete powerOfTwo carries noWrap inWindow permutation

def PushCall.ofBytes (seqNum : Nat) (bytes : Bytes) : PushCall :=
  { seqNum, payload := some bytes, len := bytes.length }

def threeShuffled : List PushCall := [.ofBytes 1 [65], .ofBytes 3 [67, 67], .ofBytes 2 [66]]

theorem threeShuffled_carries : ∀ call ∈ threeShuffled, ∃ bytes, call.Carries bytes := by
  simp [threeShuffled, PushCall.ofBytes, PushCall.Carries]

theorem threeShuffled_noWrap : NoWrap 4 1 threeShuffled := by
  intro before early
  have all : ∀ before ∈ threeShuffled.inits,
      (Reordering.run 4 1 before).buffer.expectedSeq + 4 < 2 ^ 64 := by decide
  exact all before ((List.mem_inits _ _).mpr early)

theorem emitted_in_order_threeShuffled :
    (Reordering.run 4 1 threeShuffled).outEmitted = [[65], [66], [67, 67]] ∧
      (Reordering.run 4 1 threeShuffled).returned = 3 ∧
      (Reordering.run 4 1 threeShuffled).outEmitted.length = 3 := by
  have inWindow : InWindow 4 1 threeShuffled := by
    intro before call early
    have all : ∀ arrived ∈ threeShuffled.inits, ∀ call ∈ arrived.getLast?,
        call.seqNum < (Reordering.run 4 1 arrived.dropLast).buffer.expectedSeq + 4 := by decide
    have last := all _ ((List.mem_inits _ _).mpr early) call (by simp)
    simpa using last
  have law := emitted_in_order ⟨2, rfl⟩ 1 threeShuffled threeShuffled_carries threeShuffled_noWrap
  have complete := law.2.2.2 3 (by decide) inWindow
  exact ⟨by decide, law.2.2.1.trans complete, complete⟩

end HftFixEngine.Protocol
