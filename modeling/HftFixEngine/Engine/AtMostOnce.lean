import HftFixEngine.Engine.Admission
import Mathlib.Data.List.GetD
import Mathlib.Data.List.Induction

set_option autoImplicit false

namespace HftFixEngine.Engine

open Protocol Networking Matching Word

abbrev windowSize : Nat := 2048

structure Delivery where
  ingress : Ingress := {}
  submitted : List ParsedOrder := []

def Delivery.next (protocol : ProtocolType) (delivery : Delivery) (packet : Packet) : Delivery :=
  let screening := delivery.ingress.screen protocol packet
  { ingress := screening.ingress, submitted := delivery.submitted ++ screening.handed }

def deliver (protocol : ProtocolType) (packets : List Packet) : Delivery :=
  packets.foldl (Delivery.next protocol) {}

theorem deliver_append (protocol : ProtocolType) (packets : List Packet) (packet : Packet) :
    deliver protocol (packets ++ [packet]) = (deliver protocol packets).next protocol packet := by
  simp [deliver]

section Workers

variable (protocol : ProtocolType)

theorem engine_run_delivery (packets : List Packet) :
    (HftOrderBookEngine.run protocol packets).protocolType = protocol ∧
      Delivery.mk (HftOrderBookEngine.run protocol packets).ingress
        (HftOrderBookEngine.run protocol packets).submitted = deliver protocol packets := by
  induction packets using List.reverseRecOn with
  | nil => exact ⟨rfl, rfl⟩
  | append_singleton packets packet ih =>
      obtain ⟨same, delivery⟩ := ih
      rw [deliver_append, ← delivery, HftOrderBookEngine.run_append,
        HftOrderBookEngine.step_protocolType, HftOrderBookEngine.step_ingress,
        HftOrderBookEngine.step_submitted, same]
      exact ⟨rfl, rfl⟩

theorem worker_run_delivery (expectedMessages : Nat) (packets : List Packet) :
    let worker := MatchingWorker.run protocol expectedMessages packets
    worker.protocolType = protocol ∧
      ∃ looked, looked <+: packets ∧ (worker.stopped = false → looked = packets) ∧
        Delivery.mk worker.ingress worker.submitted = deliver protocol looked := by
  induction packets using List.reverseRecOn with
  | nil => exact ⟨rfl, [], List.prefix_refl _, fun _ => rfl, rfl⟩
  | append_singleton packets packet ih =>
      obtain ⟨same, looked, before, all, delivery⟩ := ih
      rw [MatchingWorker.run_append]
      generalize MatchingWorker.run protocol expectedMessages packets = worker at *
      refine ⟨by rw [MatchingWorker.step_protocolType, same], ?_⟩
      cases going : worker.stopped with
      | true =>
          rw [worker.step_of_stopped packet going]
          refine ⟨looked, before.trans (List.prefix_append _ _), ?_, delivery⟩
          simp [going]
      | false =>
          obtain rfl := all going
          refine ⟨looked ++ [packet], List.prefix_refl _, fun _ => rfl, ?_⟩
          rw [deliver_append, ← delivery, worker.step_ingress packet going,
            worker.step_submitted packet going, same]
          rfl

end Workers

def Packet.seqNum (protocol : ProtocolType) (packet : Packet) : Nat :=
  (ProtocolParser.parseInPlace protocol packet.payload).seqNum

def disturbs (seqs : List Nat) (i j k : Nat) : Bool :=
  decide (seqs.getD i 0 = seqs.getD k 0) && decide (seqs.getD k 0 ≠ 0) &&
    decide (seqs.getD j 0 ≠ 0) &&
    decide (seqs.getD j 0 % windowSize = seqs.getD k 0 % windowSize) &&
    decide (seqs.getD j 0 ≠ seqs.getD k 0)

-- Between two occurrences of a number stands no other number of its slot.
def Undisturbed (seqs : List Nat) : Prop :=
  ∀ k < seqs.length, ∀ j < k, ∀ i < j, disturbs seqs i j k = false

instance (seqs : List Nat) : Decidable (Undisturbed seqs) :=
  inferInstanceAs (Decidable (∀ k < seqs.length, ∀ j < k, ∀ i < j, disturbs seqs i j k = false))

def Remembered (seqs : List Nat) (s : Nat) : Prop :=
  ∃ before after, seqs = before ++ s :: after ∧
    ∀ t ∈ after, t ≠ 0 → t % windowSize = s % windowSize → t = s

def submittedSeqs (submitted : List ParsedOrder) : List Nat :=
  (submitted.map ParsedOrder.seqNum).filter (· ≠ 0)

structure Tracking (seqs : List Nat) (delivery : Delivery) : Prop where
  window : delivery.ingress.feedArbitrator.windowSize = windowSize
  held : ∀ s, s ≠ 0 → Remembered seqs s →
    delivery.ingress.feedArbitrator.seenSequences (s % windowSize) = s
  known : ∀ s ∈ submittedSeqs delivery.submitted, s ∈ seqs
  once : (submittedSeqs delivery.submitted).Nodup

theorem Undisturbed.of_append {seqs more : List Nat} (undisturbed : Undisturbed (seqs ++ more)) :
    Undisturbed seqs := by
  intro k within j less i lesser
  have whole := undisturbed k (by rw [List.length_append]; omega) j less i lesser
  unfold disturbs at whole ⊢
  rwa [List.getD_append _ _ _ _ (by omega), List.getD_append _ _ _ _ (by omega),
    List.getD_append _ _ _ _ (by omega)] at whole

theorem Undisturbed.remembered {seqs : List Nat} {s : Nat} (undisturbed : Undisturbed (seqs ++ [s]))
    (some : s ≠ 0) (member : s ∈ seqs) : Remembered seqs s := by
  obtain ⟨before, after, rfl⟩ := List.append_of_mem member
  refine ⟨before, after, rfl, ?_⟩
  intro t inside other slot
  obtain ⟨n, bound, rfl⟩ := List.mem_iff_getElem.mp inside
  by_contra different
  have between := undisturbed (before.length + (after.length + 1)) (by simp)
    (before.length + (n + 1)) (by omega) before.length (by omega)
  have first : ((before ++ s :: after) ++ [s]).getD before.length 0 = s := by simp
  have second : ((before ++ s :: after) ++ [s]).getD (before.length + (n + 1)) 0 = after[n] := by
    rw [List.append_assoc, List.cons_append, List.getD_append_right _ _ _ _ (by omega),
      Nat.add_sub_cancel_left, List.getD_cons_succ, List.getD_append _ _ _ _ bound,
      List.getD_eq_getElem]
  have third : ((before ++ s :: after) ++ [s]).getD (before.length + (after.length + 1)) 0 = s := by
    simp [List.getD_eq_getElem?_getD]
  rw [disturbs, first, second, third] at between
  simp [some, other, slot, different] at between

theorem remembered_append {seqs : List Nat} {s t : Nat} (remembered : Remembered (seqs ++ [t]) s) :
    s = t ∨ Remembered seqs s ∧ (t ≠ 0 → t % windowSize = s % windowSize → t = s) := by
  obtain ⟨before, after, split, undisturbed⟩ := remembered
  induction after using List.reverseRecOn with
  | nil =>
      have last := (List.append_inj' split rfl).2
      exact Or.inl (List.cons.inj last).1.symm
  | append_singleton after u _ =>
      rw [← List.cons_append, ← List.append_assoc] at split
      obtain ⟨initial, last⟩ := List.append_inj' split rfl
      obtain rfl := (List.cons.inj last).1
      refine Or.inr ⟨⟨before, after, initial, ?_⟩, ?_⟩
      next =>
        intro v inside
        exact undisturbed v (List.mem_append_left _ inside)
      next => exact undisturbed t (by simp)

namespace Ingress

variable (ingress : Ingress) (protocol : ProtocolType) (packet : Packet)

theorem arbitrate_windowSize (seqNum : Nat) :
    (ingress.arbitrate seqNum).2.feedArbitrator.windowSize = ingress.feedArbitrator.windowSize := by
  unfold arbitrate
  split
  next => exact FeedArbitrator.processPacket_windowSize _ _ _
  next => rfl

theorem arbitrate_seenSequences (seqNum : Nat) :
    (ingress.arbitrate seqNum).2.feedArbitrator.seenSequences =
      if seqNum = 0 then ingress.feedArbitrator.seenSequences
      else Function.update ingress.feedArbitrator.seenSequences
        (ingress.feedArbitrator.slot seqNum) seqNum := by
  unfold arbitrate
  by_cases zero : seqNum = 0
  next => simp [zero]
  next =>
    rw [if_pos (Nat.pos_of_ne_zero zero), if_neg zero]
    exact FeedArbitrator.processPacket_seenSequences _ _ _

theorem screen_feedArbitrator :
    (ingress.screen protocol packet).ingress.feedArbitrator =
      (ingress.arbitrate (packet.seqNum protocol)).2.feedArbitrator := by
  unfold screen
  simp only
  split
  next => rfl
  next => exact checkGap_feedArbitrator _ _

theorem screen_seqNum : (ingress.screen protocol packet).order.seqNum = packet.seqNum protocol := by
  rw [screen_order]
  rfl

theorem handed_of_suppressed (suppressed : ingress.suppresses (packet.seqNum protocol) = true) :
    (ingress.screen protocol packet).handed = [] := by
  have duplicate : (ingress.screen protocol packet).risk = none := by
    rw [screen_risk, screen_seqNum, suppressed]
    rfl
  simp [Screening.handed, Screening.not_admitted_of_duplicate duplicate]

end Ingress

theorem submittedSeqs_handed (protocol : ProtocolType) (ingress : Ingress) (packet : Packet)
    (submitted : List ParsedOrder) :
    submittedSeqs (submitted ++ (ingress.screen protocol packet).handed) = submittedSeqs submitted ∨
      packet.seqNum protocol ≠ 0 ∧ ingress.suppresses (packet.seqNum protocol) = false ∧
        submittedSeqs (submitted ++ (ingress.screen protocol packet).handed) =
          submittedSeqs submitted ++ [packet.seqNum protocol] := by
  cases suppressed : ingress.suppresses (packet.seqNum protocol) with
  | true =>
      rw [ingress.handed_of_suppressed protocol packet suppressed, List.append_nil]
      exact Or.inl rfl
  | false =>
      unfold Screening.handed submittedSeqs
      split_ifs with admitted
      next =>
        rw [List.map_append, List.map_singleton, ingress.screen_seqNum, List.filter_append]
        by_cases zero : packet.seqNum protocol = 0
        next => exact Or.inl (by simp [zero])
        next => exact Or.inr ⟨zero, rfl, by simp [zero]⟩
      next => exact Or.inl (by rw [List.append_nil])

theorem Tracking.next {protocol : ProtocolType} {seqs : List Nat} {delivery : Delivery}
    (tracking : Tracking seqs delivery) (packet : Packet)
    (undisturbed : Undisturbed (seqs ++ [packet.seqNum protocol])) :
    Tracking (seqs ++ [packet.seqNum protocol]) (delivery.next protocol packet) := by
  have slot := delivery.ingress.feedArbitrator.slot_eq_mod (tracking.window.trans (by rfl : _ = 2 ^ 11))
  rw [tracking.window] at slot
  have seen : (delivery.next protocol packet).ingress.feedArbitrator.seenSequences = _ :=
    (congrArg FeedArbitrator.seenSequences
      (delivery.ingress.screen_feedArbitrator protocol packet)).trans
      (delivery.ingress.arbitrate_seenSequences _)
  refine ⟨?_, ?_, ?_, ?_⟩
  next =>
    change (delivery.ingress.screen protocol packet).ingress.feedArbitrator.windowSize = _
    rw [delivery.ingress.screen_feedArbitrator, delivery.ingress.arbitrate_windowSize,
      tracking.window]
  next =>
    intro s some remembered
    rw [seen]
    rcases remembered_append remembered with rfl | ⟨earlier, other⟩
    next => rw [if_neg some, slot, Function.update_self]
    next =>
      have held := tracking.held s some earlier
      split_ifs with zero
      next => exact held
      next =>
        rw [slot]
        by_cases same : s % windowSize = packet.seqNum protocol % windowSize
        next =>
          rw [same, Function.update_self]
          exact other zero same.symm
        next =>
          rw [Function.update_of_ne same]
          exact held
  next =>
    intro s member
    rcases submittedSeqs_handed protocol delivery.ingress packet delivery.submitted with
      same | ⟨-, -, more⟩
    next => exact List.mem_append_left _ (tracking.known s (same ▸ member))
    next =>
      change s ∈ submittedSeqs (delivery.submitted ++ _) at member
      rw [more] at member
      rcases List.mem_append.mp member with old | new
      next => exact List.mem_append_left _ (tracking.known s old)
      next => exact List.mem_append_right _ new
  next =>
    rcases submittedSeqs_handed protocol delivery.ingress packet delivery.submitted with
      same | ⟨some, fresh, more⟩
    next => exact same ▸ tracking.once
    next =>
      change (submittedSeqs (delivery.submitted ++ _)).Nodup
      rw [more, ← List.concat_eq_append, List.nodup_concat]
      refine ⟨?_, tracking.once⟩
      intro member
      have held := tracking.held _ some
        (undisturbed.remembered some (tracking.known _ member))
      have positive : 0 < packet.seqNum protocol := Nat.pos_of_ne_zero some
      simp [Ingress.suppresses, positive, slot, held] at fresh

theorem deliver_tracking (protocol : ProtocolType) (packets : List Packet)
    (undisturbed : Undisturbed (packets.map (Packet.seqNum protocol))) :
    Tracking (packets.map (Packet.seqNum protocol)) (deliver protocol packets) := by
  induction packets using List.reverseRecOn with
  | nil =>
      refine ⟨rfl, ?_, by simp [deliver, submittedSeqs], by simp [deliver, submittedSeqs]⟩
      rintro s _ ⟨before, after, split, _⟩
      simp at split
  | append_singleton packets packet ih =>
      rw [List.map_append, List.map_singleton] at undisturbed ⊢
      rw [deliver_append]
      exact (ih undisturbed.of_append).next packet undisturbed

theorem deliver_once (protocol : ProtocolType) {looked packets : List Packet}
    (before : looked <+: packets)
    (undisturbed : Undisturbed (packets.map (Packet.seqNum protocol))) :
    (submittedSeqs (deliver protocol looked).submitted).Nodup := by
  obtain ⟨rest, rfl⟩ := before
  rw [List.map_append] at undisturbed
  exact (deliver_tracking protocol looked undisturbed.of_append).once

theorem submitted_at_most_once (protocol : ProtocolType) (expectedMessages : Nat)
    (packets : List Packet) (undisturbed : Undisturbed (packets.map (Packet.seqNum protocol)))
    (k : Nat) :
    (submittedSeqs (HftOrderBookEngine.run protocol (packets.take k)).submitted).Nodup ∧
      (submittedSeqs
        (MatchingWorker.run protocol expectedMessages (packets.take k)).submitted).Nodup := by
  have inside := List.take_prefix k packets
  constructor
  next =>
    have engine : (HftOrderBookEngine.run protocol (packets.take k)).submitted = _ :=
      congrArg Delivery.submitted (engine_run_delivery protocol (packets.take k)).2
    rw [engine]
    exact deliver_once protocol inside undisturbed
  next =>
    obtain ⟨-, looked, before, -, delivery⟩ :=
      worker_run_delivery protocol expectedMessages (packets.take k)
    have worker : (MatchingWorker.run protocol expectedMessages (packets.take k)).submitted = _ :=
      congrArg Delivery.submitted delivery
    rw [worker]
    exact deliver_once protocol (before.trans inside) undisturbed

def tenNumbered (seqNum : Nat) : Packet :=
  sbePacket ⟨seqNum, 7, 35000000, 10, 1, MatchingEngine.defaultSymbol⟩

theorem submitted_at_most_once_repeated :
    (submittedSeqs (HftOrderBookEngine.run .sbe
        ([tenNumbered 1, tenNumbered 2, tenNumbered 1].take 3)).submitted).Nodup ∧
      (submittedSeqs (MatchingWorker.run .sbe 3
        ([tenNumbered 1, tenNumbered 2, tenNumbered 1].take 3)).submitted).Nodup :=
  submitted_at_most_once .sbe 3 [tenNumbered 1, tenNumbered 2, tenNumbered 1] (by decide +kernel) 3

-- Number 2049 takes the slot of number 1, whose repetition then passes for new.
theorem submitted_twice_evicted :
    ¬ (submittedSeqs (HftOrderBookEngine.run .sbe
        [tenNumbered 1, tenNumbered 2049, tenNumbered 1]).submitted).Nodup ∧
      ¬ (submittedSeqs (MatchingWorker.run .sbe 10
        [tenNumbered 1, tenNumbered 2049, tenNumbered 1]).submitted).Nodup := by
  constructor <;> decide +kernel

end HftFixEngine.Engine
