import HftFixEngine.Protocol.ReorderInOrder

set_option autoImplicit false

namespace HftFixEngine.Protocol

open Word SequenceReorderBuffer

-- Waiting numbers are ahead of the expected one, within the window and never the last number of 64
-- bits. This needs no bound on the run: the window test fails where the window would wrap.
def RingOk (capacity : Nat) (buffer : SequenceReorderBuffer) : Prop :=
  SlotsOk capacity (buffer.expectedSeq + 1) (min (buffer.expectedSeq + capacity) (2 ^ 64 - 1))
    buffer.ring

theorem SequenceReorderBuffer.SlotsOk.mono {capacity low high low' high' : Nat}
    {ring : Nat → ReorderSlot}
    (ok : SlotsOk capacity low high ring) (below : low' ≤ low) (above : high ≤ high') :
    SlotsOk capacity low' high' ring := by
  intro i within occupied
  obtain ⟨own, least, most⟩ := ok i within occupied
  exact ⟨own, by omega, by omega⟩

namespace PushCall

def direct (call : PushCall) : List Bytes :=
  match call.payload with
  | some bytes => if 0 < call.len then [bytes.take call.len] else []
  | none => []

end PushCall

namespace SequenceReorderBuffer

variable (capacity : Nat) (buffer : SequenceReorderBuffer)

def turned : SequenceReorderBuffer := { buffer with expectedSeq := u64 (buffer.expectedSeq + 1) }

def drainedTexts : List Bytes := ((turned buffer).drainBuffered capacity []).outEmitted

def emissions (call : PushCall) : List (Nat × Bytes) :=
  if call.seqNum = buffer.expectedSeq then
    call.direct.map (fun bytes => (call.seqNum, bytes)) ++
      ((drainedTexts capacity buffer).zipIdx (turned buffer).expectedSeq).map Prod.swap
  else []

def after (call : PushCall) : SequenceReorderBuffer :=
  (buffer.push capacity call.seqNum call.payload call.len []).2.1

variable {capacity buffer}

theorem drainBuffered_outEmitted (outEmitted : List Bytes) :
    buffer.drainBuffered capacity outEmitted =
      { buffer.drainBuffered capacity [] with
        outEmitted := outEmitted ++ (buffer.drainBuffered capacity []).outEmitted } := by
  have start : ({ buffer, outEmitted } : Drain) =
      { ({ buffer, outEmitted := [] } : Drain) with outEmitted := outEmitted ++ [] } := by simp
  unfold drainBuffered
  rw [start]
  refine Loop.run_map
    (fun drain : Drain => { drain with outEmitted := outEmitted ++ drain.outEmitted })
    (fun _ => rfl) ?_ capacity { buffer, outEmitted := [] }
  intro drain
  simp [drainSlot, List.append_assoc]

theorem push_turn {call : PushCall} (turn : call.seqNum = buffer.expectedSeq)
    (outEmitted : List Bytes) :
    let drain := (turned buffer).drainBuffered capacity (outEmitted ++ call.direct)
    buffer.push capacity call.seqNum call.payload call.len outEmitted =
      (call.direct.length + drain.drained, drain.buffer, drain.outEmitted) := by
  unfold SequenceReorderBuffer.push
  rw [if_pos turn]
  rfl

theorem push_outEmitted (call : PushCall) (outEmitted : List Bytes) :
    (buffer.push capacity call.seqNum call.payload call.len outEmitted).2.2 =
      outEmitted ++ (emissions capacity buffer call).map Prod.snd := by
  by_cases turn : call.seqNum = buffer.expectedSeq
  next =>
    have texts : (((drainedTexts capacity buffer).zipIdx (turned buffer).expectedSeq).map
        Prod.swap).map Prod.snd = drainedTexts capacity buffer := by
      rw [List.map_map]
      exact List.zipIdx_map_fst _ _
    rw [push_turn turn, drainBuffered_outEmitted, emissions, if_pos turn, List.map_append, texts,
      List.map_map]
    simp [drainedTexts, Function.comp_def]
  next =>
    unfold SequenceReorderBuffer.push
    rw [emissions, if_neg turn, if_neg turn, List.map_nil, List.append_nil]
    split_ifs <;> rfl

variable (capacity buffer)

def numberedOutput (call : PushCall) :
    { output : List (Nat × Bytes) // ∀ outEmitted,
      (buffer.push capacity call.seqNum call.payload call.len outEmitted).2.2 =
        outEmitted ++ output.map Prod.snd } :=
  ⟨emissions capacity buffer call, push_outEmitted call⟩

def emittedFor (call : PushCall) (seqNum : Nat) : List Bytes :=
  ((numberedOutput capacity buffer call).1.filter fun emission => emission.1 = seqNum).map Prod.snd

variable {capacity buffer}

theorem emittedFor_of_turn {call : PushCall} (turn : call.seqNum = buffer.expectedSeq) (seqNum : Nat) :
    emittedFor capacity buffer call seqNum =
      ((call.direct.map (fun bytes => (call.seqNum, bytes)) ++
        ((drainedTexts capacity buffer).zipIdx (turned buffer).expectedSeq).map Prod.swap).filter
          fun emission => emission.1 = seqNum).map Prod.snd := by
  simp only [emittedFor, numberedOutput, emissions, if_pos turn]

theorem filter_zipIdx (texts : List Bytes) (first seqNum : Nat) :
    (((texts.zipIdx first).map Prod.swap).filter fun emission => emission.1 = seqNum).map Prod.snd =
      if first ≤ seqNum then texts[seqNum - first]?.toList else [] := by
  induction texts generalizing first with
  | nil => simp
  | cons text rest ih =>
      rw [List.zipIdx_cons, List.map_cons, List.filter_cons]
      simp only [Prod.swap_prod_mk, decide_eq_true_eq]
      rcases Nat.lt_trichotomy first seqNum with before | rfl | past
      next =>
        rw [if_neg (by omega), if_pos (by omega), ih, if_pos (by omega),
          show seqNum - first = seqNum - (first + 1) + 1 by omega, List.getElem?_cons_succ]
      next =>
        rw [if_pos rfl, if_pos (Nat.le_refl _), List.map_cons, ih, if_neg (by omega)]
        simp
      next => rw [if_neg (by omega), if_neg (by omega), ih, if_neg (by omega)]

-- After the last number of 64 bits the expected one starts over, with nothing waiting.
theorem slots_turned (ok : RingOk capacity buffer) :
    SlotsOk capacity (turned buffer).expectedSeq
      (min ((turned buffer).expectedSeq + capacity) (2 ^ 64 - 1)) (turned buffer).ring := by
  intro i within occupied
  obtain ⟨own, least, most⟩ := ok i within occupied
  have next : u64 (buffer.expectedSeq + 1) = buffer.expectedSeq + 1 :=
    Nat.mod_eq_of_lt (by omega)
  simp only [turned, next]
  exact ⟨own, least, by omega⟩

theorem after_cases (call : PushCall) :
    (call.seqNum = buffer.expectedSeq ∧
      after capacity buffer call = ((turned buffer).drainBuffered capacity []).buffer) ∨
    (buffer.expectedSeq < call.seqNum ∧ call.seqNum < u64 (buffer.expectedSeq + capacity) ∧
      (after capacity buffer call).expectedSeq = buffer.expectedSeq ∧
      (after capacity buffer call).ring =
        Function.update buffer.ring (index capacity call.seqNum)
          ((buffer.ring (index capacity call.seqNum)).store call.seqNum call.payload call.len)) ∨
    ((call.seqNum < buffer.expectedSeq ∨ buffer.expectedSeq < call.seqNum ∧
        u64 (buffer.expectedSeq + capacity) ≤ call.seqNum) ∧
      (after capacity buffer call).expectedSeq = buffer.expectedSeq ∧
      (after capacity buffer call).ring = buffer.ring) := by
  by_cases turn : call.seqNum = buffer.expectedSeq
  next =>
    refine Or.inl ⟨turn, ?_⟩
    rw [after, push_turn turn, drainBuffered_outEmitted]
  next =>
    refine Or.inr ?_
    unfold after SequenceReorderBuffer.push
    rw [if_neg turn]
    by_cases ahead : call.seqNum > buffer.expectedSeq
    next =>
      rw [if_pos ahead]
      by_cases inside : call.seqNum < u64 (buffer.expectedSeq + capacity)
      next =>
        rw [if_pos inside]
        exact Or.inl ⟨ahead, inside, rfl, rfl⟩
      next =>
        rw [if_neg inside]
        exact Or.inr ⟨Or.inr ⟨ahead, by omega⟩, rfl, rfl⟩
    next =>
      rw [if_neg ahead]
      exact Or.inr ⟨Or.inl (by omega), rfl, rfl⟩

theorem inside_window {seqNum : Nat} (ahead : buffer.expectedSeq < seqNum)
    (inside : seqNum < u64 (buffer.expectedSeq + capacity)) :
    buffer.expectedSeq + 1 ≤ seqNum ∧
      seqNum < min (buffer.expectedSeq + capacity) (2 ^ 64 - 1) := by
  have word : u64 (buffer.expectedSeq + capacity) < 2 ^ 64 := Nat.mod_lt _ (by decide)
  have reduced : u64 (buffer.expectedSeq + capacity) ≤ buffer.expectedSeq + capacity :=
    Nat.mod_le _ _
  omega

section Push

variable (powerOfTwo : capacity.isPowerOfTwo) (ok : RingOk capacity buffer)

include powerOfTwo ok

theorem turned_drain :
    let drain := (turned buffer).drainBuffered capacity []
    Draining capacity (min ((turned buffer).expectedSeq + capacity) (2 ^ 64 - 1))
        { buffer := turned buffer, outEmitted := [] } drain (drainedTexts capacity buffer) ∧
      slotDue capacity drain = false := by
  have word : (turned buffer).expectedSeq < 2 ^ 64 := Nat.mod_lt _ (by decide)
  have noWrap : min ((turned buffer).expectedSeq + capacity) (2 ^ 64 - 1) < 2 ^ 64 := by omega
  obtain ⟨out, done, stopped⟩ := drainBuffered_spec powerOfTwo noWrap (turned buffer) []
    (slots_turned ok) (by omega) (by omega)
  have texts : drainedTexts capacity buffer = out := done.outEmitted
  exact ⟨texts ▸ done, stopped⟩

theorem ringOk_after (call : PushCall) : RingOk capacity (after capacity buffer call) := by
  rcases after_cases call with ⟨-, drained⟩ | ⟨ahead, inside, expectedSeq, ring⟩ |
    ⟨-, expectedSeq, ring⟩
  next =>
    rw [drained]
    obtain ⟨done, stopped⟩ := turned_drain powerOfTwo ok
    have advanced := done.expectedSeq
    simp only at advanced
    exact (done.slots.beyond powerOfTwo stopped).mono (Nat.le_refl _) (by omega)
  next =>
    unfold RingOk
    rw [expectedSeq, ring]
    exact ok.store powerOfTwo (inside_window ahead inside) rfl
  next =>
    unfold RingOk
    rw [expectedSeq, ring]
    exact ok

theorem waiting_stored {call : PushCall} (ahead : buffer.expectedSeq < call.seqNum)
    (inside : call.seqNum < u64 (buffer.expectedSeq + capacity)) (slot : ReorderSlot)
    (number : slot.seqNum = call.seqNum) (occupied : slot.occupied = true) :
    waiting capacity (Function.update buffer.ring (index capacity call.seqNum) slot) =
      Function.update (waiting capacity buffer.ring) call.seqNum (some slot.text) := by
  rw [waiting_update powerOfTwo (by omega) ok (inside_window ahead inside) number, occupied,
    if_pos rfl]

theorem waiting_of_after {call : PushCall} {seqNum : Nat} {text : Bytes}
    (found : waiting capacity (after capacity buffer call).ring seqNum = some text) :
    waiting capacity buffer.ring seqNum = some text ∨
      call.seqNum = seqNum ∧
        ((buffer.ring (index capacity call.seqNum)).store call.seqNum call.payload call.len).text =
          text := by
  rcases after_cases call with ⟨-, drained⟩ | ⟨ahead, inside, -, ring⟩ | ⟨-, -, ring⟩
  next =>
    rw [drained] at found
    obtain ⟨done, -⟩ := turned_drain powerOfTwo ok
    have bounds := done.slots.waiting_bounds powerOfTwo found
    exact Or.inl ((done.rest seqNum bounds.1).symm.trans found)
  next =>
    rw [ring, waiting_stored powerOfTwo ok ahead inside _ rfl rfl] at found
    by_cases same : call.seqNum = seqNum
    next =>
      rw [← same, Function.update_self] at found
      exact Or.inr ⟨same, Option.some.inj found⟩
    next =>
      rw [Function.update_of_ne (Ne.symm same)] at found
      exact Or.inl found
  next =>
    rw [ring] at found
    exact Or.inl found

theorem emittedFor_other {call : PushCall} {seqNum : Nat} (other : call.seqNum ≠ seqNum)
    (due : buffer.expectedSeq ≤ seqNum)
    (passed : seqNum < (after capacity buffer call).expectedSeq) :
    ∃ text, waiting capacity buffer.ring seqNum = some text ∧
      emittedFor capacity buffer call seqNum = [text] := by
  rcases after_cases call with ⟨turn, drained⟩ | ⟨-, -, expectedSeq, -⟩ | ⟨-, expectedSeq, -⟩
  next =>
    rw [drained] at passed
    obtain ⟨done, -⟩ := turned_drain powerOfTwo ok
    have advanced := done.expectedSeq
    have bounded := done.bounded
    have next : (turned buffer).expectedSeq = buffer.expectedSeq + 1 :=
      Nat.mod_eq_of_lt (by omega)
    simp only [next] at advanced
    have inside : seqNum - (buffer.expectedSeq + 1) < (drainedTexts capacity buffer).length := by
      omega
    refine ⟨(drainedTexts capacity buffer)[seqNum - (buffer.expectedSeq + 1)], ?_, ?_⟩
    next =>
      have found := done.numbered _ _ (List.getElem?_eq_getElem inside)
      simp only [next] at found
      rwa [Nat.add_sub_cancel' (by omega)] at found
    next =>
      have direct : ((call.direct.map fun bytes => (call.seqNum, bytes)).filter
          fun emission => emission.1 = seqNum) = [] := by
        simp [List.filter_map, Function.comp_def, other]
      rw [emittedFor_of_turn turn, List.filter_append, direct, List.nil_append,
        filter_zipIdx, next, if_pos (by omega), List.getElem?_eq_getElem inside, Option.toList_some]
  next => omega
  next => omega

theorem emittedFor_turn (call : PushCall) (turn : call.seqNum = buffer.expectedSeq) :
    emittedFor capacity buffer call call.seqNum = call.direct := by
  have direct : ((call.direct.map fun bytes => (call.seqNum, bytes)).filter
      fun emission => emission.1 = call.seqNum).map Prod.snd = call.direct := by
    simp [List.filter_map, Function.comp_def]
  rw [emittedFor_of_turn turn, List.filter_append, List.map_append, direct,
    filter_zipIdx]
  -- a string under the same number would have waited at the expected number itself
  have nothing : (if (turned buffer).expectedSeq ≤ call.seqNum then
      (drainedTexts capacity buffer)[call.seqNum - (turned buffer).expectedSeq]?.toList
      else []) = [] := by
    split
    next wrapped =>
      rw [Option.toList_eq_nil_iff, Option.eq_none_iff_forall_ne_some]
      intro text drained
      have found := (turned_drain powerOfTwo ok).1.numbered _ _ drained
      simp only [Nat.add_sub_cancel' wrapped] at found
      have bounds := SlotsOk.waiting_bounds powerOfTwo ok found
      omega
    next => rfl
  rw [nothing, List.append_nil]

end Push

inductive Reachable (capacity : Nat) : SequenceReorderBuffer → Prop
  | built (initialExpected : Nat) : Reachable capacity { expectedSeq := initialExpected }
  | pushed {buffer : SequenceReorderBuffer} (call : PushCall) (before : Reachable capacity buffer) :
      Reachable capacity (after capacity buffer call)
  | cleared {buffer : SequenceReorderBuffer} (initialExpected : Nat)
      (before : Reachable capacity buffer) :
      Reachable capacity (buffer.reset initialExpected)

theorem Reachable.ringOk (powerOfTwo : capacity.isPowerOfTwo) (reached : Reachable capacity buffer) :
    RingOk capacity buffer := by
  induction reached with
  | built initialExpected =>
      intro i _ occupied
      cases occupied
  | pushed call _ ih => exact ringOk_after powerOfTwo ih call
  | cleared initialExpected _ ih =>
      intro i _ occupied
      cases occupied

end SequenceReorderBuffer

structure Packet where
  payload : Option Bytes
  len : Nat
  readable : ∀ bytes, payload = some bytes → len ≤ bytes.length

namespace Packet

def call (packet : Packet) (seqNum : Nat) : PushCall :=
  { seqNum, payload := packet.payload, len := packet.len }

@[simp] theorem call_seqNum (packet : Packet) (seqNum : Nat) : (packet.call seqNum).seqNum = seqNum :=
  rfl

def writtenIndices (packet : Packet) : List Nat :=
  let payloadLen := min packet.len maxPayloadLen
  if packet.payload.isSome ∧ 0 < payloadLen then List.range payloadLen ++ [payloadLen] else []

theorem store_frame (packet : Packet) (slot : ReorderSlot) (seqNum i : Nat)
    (unwritten : i ∉ packet.writtenIndices) :
    (slot.store seqNum packet.payload packet.len).payload i = slot.payload i := by
  unfold writtenIndices at unwritten
  cases source : packet.payload with
  | none => rfl
  | some bytes =>
      simp only [source, Option.isSome_some, true_and] at unwritten
      simp only [ReorderSlot.store]
      split
      next positive =>
        rw [if_pos positive] at unwritten
        simp only [List.mem_append, List.mem_range, List.mem_singleton, not_or] at unwritten
        rw [Function.update_of_ne unwritten.2, Slots.overwrite, List.getElem?_eq_none,
          Option.getD_none]
        rw [List.length_take]
        omega
      next => rfl

def writes (packet : Packet) :
    { indices : List Nat // ∀ (slot : ReorderSlot) (seqNum i : Nat), i ∉ indices →
      (slot.store seqNum packet.payload packet.len).payload i = slot.payload i } :=
  ⟨packet.writtenIndices, packet.store_frame⟩

structure PathsAgree (packet : Packet) : Prop where
  sameBytes : ∀ capacity, capacity.isPowerOfTwo → ∀ start, Reachable capacity start →
    ∀ seqNum, start.expectedSeq < seqNum → seqNum < u64 (start.expectedSeq + capacity) →
    ∀ (between : List PushCall) (last : PushCall),
      (∀ call ∈ between, call.seqNum = seqNum → call = packet.call seqNum) →
      last.seqNum ≠ seqNum →
      let ready := between.foldl (after capacity) (after capacity start (packet.call seqNum))
      ready.expectedSeq ≤ seqNum → seqNum < (after capacity ready last).expectedSeq →
      ∀ inTurn, Reachable capacity inTurn → inTurn.expectedSeq = seqNum →
        emittedFor capacity ready last seqNum =
          emittedFor capacity inTurn (packet.call seqNum) seqNum
  inBounds : ∀ i ∈ packet.writes.1, i < maxPayloadLen

section Agree

variable {packet : Packet} {bytes : Bytes} (source : packet.payload = some bytes)
  (positive : 0 < packet.len) (short : packet.len ≤ 511)

include source positive short

theorem stored_text (slot : ReorderSlot) (seqNum : Nat) :
    (slot.store seqNum packet.payload packet.len).text = bytes.take packet.len := by
  rw [source]
  exact store_text slot seqNum (packet.readable bytes source) positive short

theorem waiting_text {capacity : Nat} (powerOfTwo : capacity.isPowerOfTwo) {seqNum : Nat}
    (between : List PushCall)
    (copies : ∀ call ∈ between, call.seqNum = seqNum → call = packet.call seqNum)
    {buffer : SequenceReorderBuffer} (ok : RingOk capacity buffer)
    (own : ∀ text, waiting capacity buffer.ring seqNum = some text →
      text = bytes.take packet.len) :
    RingOk capacity (between.foldl (after capacity) buffer) ∧
      ∀ text, waiting capacity (between.foldl (after capacity) buffer).ring seqNum = some text →
        text = bytes.take packet.len := by
  induction between generalizing buffer with
  | nil => exact ⟨ok, own⟩
  | cons call rest ih =>
      refine ih (fun other member => copies other (List.mem_cons_of_mem _ member))
        (ringOk_after powerOfTwo ok call) ?_
      intro text found
      rcases waiting_of_after powerOfTwo ok found with before | ⟨same, stored⟩
      next => exact own text before
      next =>
        rw [copies call List.mem_cons_self same] at stored
        exact stored.symm.trans (stored_text source positive short _ _)

theorem sameBytes_of_short {capacity : Nat} (powerOfTwo : capacity.isPowerOfTwo)
    {start : SequenceReorderBuffer} (reached : Reachable capacity start) {seqNum : Nat}
    (ahead : start.expectedSeq < seqNum) (inside : seqNum < u64 (start.expectedSeq + capacity))
    (between : List PushCall)
    (copies : ∀ call ∈ between, call.seqNum = seqNum → call = packet.call seqNum)
    {last : PushCall} (other : last.seqNum ≠ seqNum) :
    let ready := between.foldl (after capacity) (after capacity start (packet.call seqNum))
    ready.expectedSeq ≤ seqNum → seqNum < (after capacity ready last).expectedSeq →
      emittedFor capacity ready last seqNum = [bytes.take packet.len] := by
  have ok := reached.ringOk powerOfTwo
  have stored : ∀ text,
      waiting capacity (after capacity start (packet.call seqNum)).ring seqNum = some text →
      text = bytes.take packet.len := by
    intro text found
    rcases after_cases (packet.call seqNum) with ⟨turn, -⟩ | ⟨-, -, -, ring⟩ | ⟨outside, -⟩
    next => exact absurd turn (Nat.ne_of_gt ahead)
    next =>
      rw [ring, waiting_stored powerOfTwo ok ahead inside _ rfl rfl, call_seqNum,
        Function.update_self] at found
      exact (Option.some.inj found).symm.trans (stored_text source positive short _ _)
    next =>
      simp only [call] at outside
      omega
  intro ready due passed
  obtain ⟨ok, own⟩ := waiting_text source positive short powerOfTwo between copies
    (ringOk_after powerOfTwo ok (packet.call seqNum)) stored
  obtain ⟨text, found, emitted⟩ := emittedFor_other powerOfTwo ok other due passed
  rw [emitted, own text found]

end Agree

theorem pair_expectedSeq (packet : Packet) :
    (after 2 { expectedSeq := 1 } (packet.call 2)).expectedSeq = 1 ∧
      (after 2 (after 2 { expectedSeq := 1 } (packet.call 2)) ⟨1, some [65], 1⟩).expectedSeq =
        3 := by
  simp [after, SequenceReorderBuffer.push, call, u64, index, drainBuffered, Loop.run, slotDue,
    drainSlot, ReorderSlot.store]

theorem PathsAgree.direct_ne_nil {packet : Packet} (agree : packet.PathsAgree) :
    (packet.call 2).direct ≠ [] := by
  have two : Nat.isPowerOfTwo 2 := ⟨1, rfl⟩
  obtain ⟨before, passed⟩ := pair_expectedSeq packet
  have early := ringOk_after two (Reachable.ringOk two (.built 1)) (packet.call 2)
  have same := agree.sameBytes 2 two { expectedSeq := 1 } (.built 1) 2 (by decide) (by decide) []
    ⟨1, some [65], 1⟩ (by simp) (by decide) (by rw [List.foldl_nil, before]; decide)
    (by rw [List.foldl_nil, passed]; decide) { expectedSeq := 2 } (.built 2) rfl
  have other : PushCall.seqNum ⟨1, some [65], 1⟩ ≠ 2 := by decide
  obtain ⟨text, -, emitted⟩ := emittedFor_other two early other (by rw [before]; decide)
    (by rw [passed]; decide)
  have turn := emittedFor_turn two (Reachable.ringOk two (.built 2)) (packet.call 2) rfl
  rw [call_seqNum] at turn
  rw [List.foldl_nil, emitted, turn] at same
  rw [← same]
  exact List.cons_ne_nil _ _

theorem pathsAgree_iff (packet : Packet) :
    packet.PathsAgree ↔ packet.payload ≠ none ∧ 0 < packet.len ∧ packet.len ≤ 511 := by
  constructor
  next =>
    intro agree
    have direct := agree.direct_ne_nil
    simp only [PushCall.direct, call] at direct
    cases source : packet.payload with
    | none => simp [source] at direct
    | some bytes =>
        have positive : 0 < packet.len := by
          by_contra none
          simp [source, none] at direct
        have written : min packet.len maxPayloadLen ∈ packet.writtenIndices := by
          have some_written : 0 < min packet.len maxPayloadLen := by
            simp only [maxPayloadLen]
            omega
          simp [writtenIndices, source, some_written]
        have below := agree.inBounds _ written
        simp only [maxPayloadLen] at below
        exact ⟨by simp, positive, by omega⟩
  next =>
    rintro ⟨given, positive, short⟩
    obtain ⟨bytes, source⟩ := Option.ne_none_iff_exists'.mp given
    constructor
    case sameBytes =>
      intro capacity powerOfTwo start reached seqNum ahead inside between last copies other ready
        due passed inTurn turn atTurn
      have drained := sameBytes_of_short source positive short powerOfTwo reached ahead inside
        between copies other due passed
      have direct := emittedFor_turn powerOfTwo (turn.ringOk powerOfTwo) (packet.call seqNum)
        atTurn.symm
      rw [call_seqNum] at direct
      rw [drained, direct]
      simp [PushCall.direct, call, source, positive]
    case inBounds =>
      intro i member
      simp only [writes, writtenIndices, source, Option.isSome_some, true_and] at member
      split at member
      next =>
        simp only [maxPayloadLen, List.mem_append, List.mem_range, List.mem_singleton] at member ⊢
        omega
      next => cases member

def fullPacket : Packet where
  payload := some (List.replicate 512 65)
  len := 512
  readable bytes given := by
    rw [← Option.some.inj given, List.length_replicate]

def emptyPacket : Packet where
  payload := none
  len := 0
  readable bytes given := by cases given

theorem pathsAgree_broken_fullPacket : ¬ fullPacket.PathsAgree ∧ ¬ emptyPacket.PathsAgree := by
  constructor
  next =>
    intro agree
    have below := agree.inBounds 512 (by decide +kernel)
    simp only [maxPayloadLen] at below
    omega
  next =>
    intro agree
    exact agree.direct_ne_nil rfl

end Packet

end HftFixEngine.Protocol
