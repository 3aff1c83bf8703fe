import HftFixEngine.Engine.Admission

set_option autoImplicit false

namespace HftFixEngine.Engine

open Protocol Networking Word

structure Accounts where
  ingress : Ingress := {}
  telemetry : Telemetry := {}

def Accounts.step (protocol : ProtocolType) (accounts : Accounts) (packet : Packet) : Accounts :=
  let screening := accounts.ingress.screen protocol packet
  { ingress := screening.ingress
    telemetry :=
      match screening.risk with
      | none => accounts.telemetry
      | some risk => accounts.telemetry.count (risk = .approved) packet.latencyNs }

-- The arbiter beside the number of packets that it has not suppressed.
structure Passing where
  feedArbitrator : FeedArbitrator := { windowSize := 2048 }
  unsuppressed : Nat := 0

def Passing.step (protocol : ProtocolType) (passing : Passing) (packet : Packet) : Passing :=
  let seqNum := (ProtocolParser.parseInPlace protocol packet.payload).seqNum
  if 0 < seqNum then
    let (result, feedArbitrator) := passing.feedArbitrator.processPacket .lineA seqNum
    { feedArbitrator
      unsuppressed := if result.isDuplicate then passing.unsuppressed else passing.unsuppressed + 1 }
  else { passing with unsuppressed := passing.unsuppressed + 1 }

def unsuppressed (protocol : ProtocolType) (packets : List Packet) : Nat :=
  (packets.foldl (Passing.step protocol) {}).unsuppressed

theorem unsuppressed_le (protocol : ProtocolType) (packets : List Packet) :
    unsuppressed protocol packets ≤ packets.length := by
  have counted (passing : Passing) :
      (packets.foldl (Passing.step protocol) passing).unsuppressed ≤
        passing.unsuppressed + packets.length := by
    induction packets generalizing passing with
    | nil => exact Nat.le_refl _
    | cons packet packets ih =>
      have one : (passing.step protocol packet).unsuppressed ≤ passing.unsuppressed + 1 := by
        simp only [Passing.step]
        split
        next =>
          dsimp only
          split <;> omega
        next => exact Nat.le_refl _
      have rest := ih (passing.step protocol packet)
      rw [List.foldl_cons, List.length_cons]
      omega
  have all := counted {}
  rwa [Nat.zero_add] at all

structure Telemetry.Lawful (telemetry : Telemetry) (riskMgr : PreTradeRiskManager)
    (unsuppressed : Nat) : Prop where
  processed : telemetry.messagesProcessed = telemetry.riskApproved + telemetry.riskRejected
  all : telemetry.riskApproved + telemetry.riskRejected = unsuppressed
  approved : telemetry.riskApproved = riskMgr.approvedCount
  rejected : telemetry.riskRejected = riskMgr.rejectedCount
  latency : u64 telemetry.totalLatencyNs =
    u64 (telemetry.approvedTotalLatencyNs + telemetry.rejectedTotalLatencyNs)

structure Accounts.Tally (accounts : Accounts) (approved rejected : Nat) : Prop where
  messagesProcessed : accounts.telemetry.messagesProcessed = u32 (approved + rejected)
  riskApproved : accounts.telemetry.riskApproved = u64 approved
  riskRejected : accounts.telemetry.riskRejected = u64 rejected
  approvedCount : accounts.ingress.riskMgr.approvedCount = u64 approved
  rejectedCount : accounts.ingress.riskMgr.rejectedCount = u64 rejected
  latency : u64 accounts.telemetry.totalLatencyNs =
    u64 (accounts.telemetry.approvedTotalLatencyNs + accounts.telemetry.rejectedTotalLatencyNs)

namespace Accounts

variable {accounts : Accounts} {approved rejected : Nat}

theorem Tally.lawful_iff (tally : accounts.Tally approved rejected) :
    accounts.telemetry.Lawful accounts.ingress.riskMgr (approved + rejected) ↔
      approved + rejected < 2 ^ 32 := by
  obtain ⟨processed, riskApproved, riskRejected, approvedCount, rejectedCount, latency⟩ := tally
  simp only [u32, u64] at processed riskApproved riskRejected approvedCount rejectedCount
  constructor
  case mp =>
    intro lawful
    have counted := lawful.processed.trans lawful.all
    omega
  case mpr =>
    intro few
    constructor
    case processed => omega
    case all => omega
    case approved => omega
    case rejected => omega
    case latency => exact latency

theorem Tally.count (tally : accounts.Tally approved rejected) {now : Accounts} (latency : Nat)
    (risk : Bool) (telemetry : now.telemetry = accounts.telemetry.count risk latency)
    (approvedCount : now.ingress.riskMgr.approvedCount =
      if risk then u64 (accounts.ingress.riskMgr.approvedCount + 1)
      else accounts.ingress.riskMgr.approvedCount)
    (rejectedCount : now.ingress.riskMgr.rejectedCount =
      if risk then accounts.ingress.riskMgr.rejectedCount
      else u64 (accounts.ingress.riskMgr.rejectedCount + 1)) :
    now.Tally (if risk then approved + 1 else approved) (if risk then rejected else rejected + 1) := by
  obtain ⟨oldProcessed, oldApproved, oldRejected, oldApprovedCount, oldRejectedCount, oldLatency⟩ :=
    tally
  simp only [u32, u64] at *
  cases risk with
  | true =>
    simp only [Telemetry.count, if_true] at *
    constructor <;> simp only [telemetry, u32, u64] <;> omega
  | false =>
    simp only [Telemetry.count, Bool.false_eq_true, if_false] at *
    constructor <;> simp only [telemetry, u32, u64] <;> omega

end Accounts

section Step

variable (protocol : ProtocolType) (packet : Packet)

theorem evaluateOrder_counts (manager : PreTradeRiskManager) (order : ParsedOrder) (reference : Int) :
    (manager.evaluateOrder order reference).2.approvedCount =
        (if decide ((manager.evaluateOrder order reference).1 = .approved) then
          u64 (manager.approvedCount + 1) else manager.approvedCount) ∧
      (manager.evaluateOrder order reference).2.rejectedCount =
        if decide ((manager.evaluateOrder order reference).1 = .approved) then
          manager.rejectedCount else u64 (manager.rejectedCount + 1) := by
  unfold PreTradeRiskManager.evaluateOrder
  split <;> simp

theorem Passing.step_eq {passing : Passing} {ingress : Ingress}
    (same : ingress.feedArbitrator = passing.feedArbitrator) :
    let arbitrated := ingress.arbitrate (ProtocolParser.parseInPlace protocol packet.payload).seqNum
    passing.step protocol packet =
      { feedArbitrator := arbitrated.2.feedArbitrator
        unsuppressed :=
          if arbitrated.1 then passing.unsuppressed else passing.unsuppressed + 1 } := by
  simp only [Passing.step, Ingress.arbitrate, same]
  split
  next => rfl
  next => simp [same]

theorem screen_cases (ingress : Ingress) :
    let arbitrated := ingress.arbitrate (ProtocolParser.parseInPlace protocol packet.payload).seqNum
    let screening := ingress.screen protocol packet
    (arbitrated.1 = true ∧ screening.risk = none ∧ screening.ingress = arbitrated.2) ∨
      (arbitrated.1 = false ∧ ∃ risk, screening.risk = some risk ∧
        screening.ingress.feedArbitrator = arbitrated.2.feedArbitrator ∧
        screening.ingress.riskMgr.approvedCount =
          (if decide (risk = .approved) then u64 (ingress.riskMgr.approvedCount + 1)
          else ingress.riskMgr.approvedCount) ∧
        screening.ingress.riskMgr.rejectedCount =
          if decide (risk = .approved) then ingress.riskMgr.rejectedCount
          else u64 (ingress.riskMgr.rejectedCount + 1)) := by
  intro arbitrated screening
  let seqNum := (ProtocolParser.received protocol packet.payload packet.staleId).seqNum
  have riskMgr : (arbitrated.2.checkGap seqNum).2.riskMgr = ingress.riskMgr := by
    rw [Ingress.checkGap_riskMgr]
    exact ingress.arbitrate_riskMgr seqNum
  have feedArbitrator := arbitrated.2.checkGap_feedArbitrator seqNum
  cases duplicate : arbitrated.1 with
  | true =>
    refine .inl ⟨rfl, ?_⟩
    simp only [screening, Ingress.screen]
    rw [if_pos (show (ingress.arbitrate seqNum).1 = true from duplicate)]
    exact ⟨rfl, rfl⟩
  | false =>
    refine .inr ⟨rfl, ?_⟩
    simp only [screening, Ingress.screen]
    have passes : ¬ (ingress.arbitrate seqNum).1 = true := by
      rw [show (ingress.arbitrate seqNum).1 = false from duplicate]
      decide
    rw [if_neg passes, ← riskMgr]
    exact ⟨_, rfl, feedArbitrator, evaluateOrder_counts _ _ _⟩

end Step

structure Accounts.Follows (accounts : Accounts) (passing : Passing) : Prop where
  feedArbitrator : accounts.ingress.feedArbitrator = passing.feedArbitrator
  tally : ∃ approved rejected,
    approved + rejected = passing.unsuppressed ∧ accounts.Tally approved rejected

namespace Accounts.Follows

variable {accounts : Accounts} {passing : Passing}

theorem start : Follows {} {} where
  feedArbitrator := rfl
  tally := ⟨0, 0, rfl, ⟨rfl, rfl, rfl, rfl, rfl, rfl⟩⟩

theorem step (follows : accounts.Follows passing) (protocol : ProtocolType) (packet : Packet) :
    (accounts.step protocol packet).Follows (passing.step protocol packet) := by
  obtain ⟨approved, rejected, all, tally⟩ := follows.tally
  rw [Passing.step_eq protocol packet follows.feedArbitrator]
  obtain ⟨duplicate, risk, ingress⟩ | ⟨passes, result, risk, feedArbitrator, counts⟩ :=
    screen_cases protocol packet accounts.ingress
  next =>
    have same : (accounts.step protocol packet).ingress.riskMgr = accounts.ingress.riskMgr := by
      simp only [Accounts.step]
      rw [ingress, Ingress.arbitrate_riskMgr]
    have telemetry : (accounts.step protocol packet).telemetry = accounts.telemetry := by
      simp only [Accounts.step, risk]
    constructor
    case feedArbitrator =>
      simp only [Accounts.step]
      rw [ingress]
    case tally =>
      refine ⟨approved, rejected, by rw [duplicate, if_pos rfl]; exact all, ?_⟩
      obtain ⟨processed, riskApproved, riskRejected, approvedCount, rejectedCount, latency⟩ := tally
      constructor <;> simp only [same, telemetry] <;> assumption
  next =>
    have telemetry : (accounts.step protocol packet).telemetry =
        accounts.telemetry.count (decide (result = .approved)) packet.latencyNs := by
      simp only [Accounts.step, risk]
    constructor
    case feedArbitrator => exact feedArbitrator
    case tally =>
      refine ⟨_, _, ?_, tally.count packet.latencyNs _ telemetry counts.1 counts.2⟩
      rw [passes]
      cases decide (result = .approved) <;> simp <;> omega

theorem run (protocol : ProtocolType) (packets : List Packet) (follows : accounts.Follows passing) :
    (packets.foldl (Accounts.step protocol) accounts).Follows
      (packets.foldl (Passing.step protocol) passing) := by
  induction packets generalizing accounts passing with
  | nil => exact follows
  | cons packet packets ih => exact ih (follows.step protocol packet)

end Accounts.Follows

namespace HftOrderBookEngine

variable (engine : HftOrderBookEngine)

def accounts : Accounts := { ingress := engine.ingress, telemetry := engine.telemetry }

theorem step_accounts (packet : Packet) :
    (engine.step packet).accounts = engine.accounts.step engine.protocolType packet := by
  have telemetry : (engine.step packet).telemetry =
      (engine.accounts.step engine.protocolType packet).telemetry := by
    cases risk : (engine.ingress.screen engine.protocolType packet).risk with
    | none => simp only [step, Accounts.step, accounts, risk]
    | some result =>
      simp only [step, Accounts.step, accounts, risk]
      split <;> rfl
  rw [accounts, telemetry, step_ingress]
  rfl

theorem foldl_accounts (packets : List Packet) :
    (packets.foldl step engine).accounts =
      packets.foldl (Accounts.step engine.protocolType) engine.accounts := by
  induction packets generalizing engine with
  | nil => rfl
  | cons packet packets ih =>
    rw [List.foldl_cons, List.foldl_cons, ih, step_accounts, step_protocolType]

theorem run_tally (protocol : ProtocolType) (packets : List Packet) :
    ∃ approved rejected, approved + rejected = unsuppressed protocol packets ∧
      (run protocol packets).accounts.Tally approved rejected := by
  have same : (run protocol packets).accounts = _ :=
    foldl_accounts { protocolType := protocol } packets
  rw [same]
  exact (Accounts.Follows.start.run protocol packets).tally

end HftOrderBookEngine

namespace MatchingWorker

variable (worker : MatchingWorker)

def accounts : Accounts := { ingress := worker.ingress, telemetry := worker.telemetry }

theorem step_accounts (packet : Packet) (going : worker.stopped = false) :
    (worker.step packet).accounts = worker.accounts.step worker.protocolType packet := by
  have telemetry : (worker.step packet).telemetry =
      (worker.accounts.step worker.protocolType packet).telemetry := by
    cases risk : (worker.ingress.screen worker.protocolType packet).risk with
    | none => simp only [step, Accounts.step, accounts, going, risk, Bool.false_eq_true, if_false]
    | some result =>
      simp only [step, Accounts.step, accounts, going, risk, Bool.false_eq_true, if_false]
      split <;> rfl
  rw [accounts, telemetry, step_ingress worker packet going]
  rfl

theorem foldl_of_stopped (packets : List Packet) (stopped : worker.stopped = true) :
    packets.foldl step worker = worker := by
  induction packets with
  | nil => rfl
  | cons packet packets ih => rw [List.foldl_cons, step_of_stopped worker packet stopped, ih]

theorem foldl_accounts (packets : List Packet) (going : (packets.foldl step worker).stopped = false) :
    (packets.foldl step worker).accounts =
      packets.foldl (Accounts.step worker.protocolType) worker.accounts := by
  induction packets generalizing worker with
  | nil => rfl
  | cons packet packets ih =>
    have before : worker.stopped = false := by
      cases stopped : worker.stopped with
      | false => rfl
      | true =>
        rw [worker.foldl_of_stopped (packet :: packets) stopped, stopped] at going
        exact going
    rw [List.foldl_cons, List.foldl_cons, ih _ going, step_accounts worker packet before,
      step_protocolType]

theorem run_tally (protocol : ProtocolType) (expectedMessages : Nat) (packets : List Packet)
    (going : (run protocol expectedMessages packets).stopped = false) :
    ∃ approved rejected, approved + rejected = unsuppressed protocol packets ∧
      (run protocol expectedMessages packets).accounts.Tally approved rejected := by
  have same : (run protocol expectedMessages packets).accounts = _ :=
    foldl_accounts { protocolType := protocol, expectedMessages } packets going
  rw [same]
  exact (Accounts.Follows.start.run protocol packets).tally

end MatchingWorker

theorem telemetry_lawful_iff (protocol : ProtocolType) (packets : List Packet) :
    ((HftOrderBookEngine.run protocol packets).telemetry.Lawful
        (HftOrderBookEngine.run protocol packets).ingress.riskMgr (unsuppressed protocol packets) ↔
      unsuppressed protocol packets < 2 ^ 32) ∧
    ∀ expectedMessages,
      (MatchingWorker.run protocol expectedMessages packets).stopped = false →
      ((MatchingWorker.run protocol expectedMessages packets).telemetry.Lawful
          (MatchingWorker.run protocol expectedMessages packets).ingress.riskMgr
          (unsuppressed protocol packets) ↔
        unsuppressed protocol packets < 2 ^ 32) := by
  constructor
  next =>
    obtain ⟨approved, rejected, all, tally⟩ := HftOrderBookEngine.run_tally protocol packets
    rw [← all]
    exact tally.lawful_iff
  next =>
    intro expectedMessages going
    obtain ⟨approved, rejected, all, tally⟩ :=
      MatchingWorker.run_tally protocol expectedMessages packets going
    rw [← all]
    exact tally.lawful_iff

def nullPacket : Packet where
  payload := none
  latencyNs := 0
  currentTs := 0

theorem unsuppressed_nullPackets (protocol : ProtocolType) (count : Nat) :
    unsuppressed protocol (List.replicate count nullPacket) = count := by
  have passed (passing : Passing) :
      ((List.replicate count nullPacket).foldl (Passing.step protocol) passing).unsuppressed =
        passing.unsuppressed + count := by
    induction count generalizing passing with
    | zero => rfl
    | succ count ih =>
      rw [List.replicate_succ, List.foldl_cons, ih]
      simp only [Passing.step, nullPacket, ProtocolParser.parseInPlace, Nat.lt_irrefl, if_false]
      omega
  rw [unsuppressed, passed]
  exact Nat.zero_add count

theorem run_nullPackets {count : Nat} (many : 2 ^ 32 ≤ count) (fits : count < 2 ^ 64) :
    (HftOrderBookEngine.run .fix (List.replicate count nullPacket)).telemetry.messagesProcessed =
        u32 count ∧
      (HftOrderBookEngine.run .fix (List.replicate count nullPacket)).telemetry.riskApproved +
        (HftOrderBookEngine.run .fix (List.replicate count nullPacket)).telemetry.riskRejected =
          count ∧
      ¬ (HftOrderBookEngine.run .fix (List.replicate count nullPacket)).telemetry.Lawful
        (HftOrderBookEngine.run .fix (List.replicate count nullPacket)).ingress.riskMgr count := by
  obtain ⟨approved, rejected, all, tally⟩ :=
    HftOrderBookEngine.run_tally .fix (List.replicate count nullPacket)
  rw [unsuppressed_nullPackets] at all
  subst all
  refine ⟨tally.messagesProcessed, ?_, ?_⟩
  next =>
    have approvedOnes := tally.riskApproved
    have rejectedOnes := tally.riskRejected
    simp only [HftOrderBookEngine.accounts, u64] at approvedOnes rejectedOnes
    omega
  next =>
    intro lawful
    have few := tally.lawful_iff.mp lawful
    omega

def processedRange : Nat := 4294967296

theorem telemetry_wraps :
    unsuppressed .fix (List.replicate processedRange nullPacket) = processedRange ∧
      (HftOrderBookEngine.run .fix
        (List.replicate processedRange nullPacket)).telemetry.messagesProcessed = 0 ∧
      (HftOrderBookEngine.run .fix
          (List.replicate processedRange nullPacket)).telemetry.riskApproved +
        (HftOrderBookEngine.run .fix
          (List.replicate processedRange nullPacket)).telemetry.riskRejected = processedRange ∧
      ¬ (HftOrderBookEngine.run .fix
          (List.replicate processedRange nullPacket)).telemetry.Lawful
        (HftOrderBookEngine.run .fix
          (List.replicate processedRange nullPacket)).ingress.riskMgr processedRange := by
  obtain ⟨processed, sum, unlawful⟩ :=
    run_nullPackets (show 2 ^ 32 ≤ processedRange by decide) (by decide)
  exact ⟨unsuppressed_nullPackets .fix processedRange, processed, sum, unlawful⟩

end HftFixEngine.Engine
