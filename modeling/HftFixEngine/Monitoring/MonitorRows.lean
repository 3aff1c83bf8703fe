import HftFixEngine.Monitoring.CsvPerformanceMonitor
import HftFixEngine.Shared.Registers

set_option autoImplicit false

namespace HftFixEngine.Monitoring

open Common Engine Protocol Word

structure Balanced (treated : Nat) (telemetry : Telemetry) : Prop where
  sum : telemetry.messagesProcessed = telemetry.riskApproved + telemetry.riskRejected
  few : telemetry.messagesProcessed ≤ treated

namespace Balanced

variable {treated : Nat} {telemetry : Telemetry}

theorem start : Balanced 0 {} := ⟨rfl, Nat.le_refl 0⟩

theorem later (balanced : Balanced treated telemetry) : Balanced (treated + 1) telemetry :=
  ⟨balanced.sum, Nat.le_succ_of_le balanced.few⟩

theorem count_eq (balanced : Balanced treated telemetry) (few : treated + 1 < 2 ^ 32) (risk : Bool)
    (latency : Nat) :
    (telemetry.count risk latency).messagesProcessed = telemetry.messagesProcessed + 1 ∧
      (telemetry.count risk latency).riskApproved = telemetry.riskApproved + risk.toNat ∧
      (telemetry.count risk latency).riskRejected = telemetry.riskRejected + (!risk).toNat := by
  obtain ⟨sum, seen⟩ := balanced
  cases risk <;> simp only [Telemetry.count, u32, u64, if_true, Bool.false_eq_true, if_false] <;>
    simp <;> omega

theorem telemetry_cases (protocol : ProtocolType) (accounts : Accounts) (packet : Packet) :
    let screening := accounts.ingress.screen protocol packet
    (screening.risk.isSome = false ∧ (accounts.step protocol packet).telemetry = accounts.telemetry) ∨
      (screening.risk.isSome = true ∧ ∃ risk,
        (accounts.step protocol packet).telemetry = accounts.telemetry.count risk packet.latencyNs) := by
  intro screening
  cases risk : screening.risk with
  | none =>
    refine .inl ⟨rfl, ?_⟩
    simp only [Accounts.step, show (accounts.ingress.screen protocol packet).risk = none from risk]
  | some result =>
    refine .inr ⟨rfl, decide (result = .approved), ?_⟩
    simp only [Accounts.step, show (accounts.ingress.screen protocol packet).risk = some result from risk]

theorem count (balanced : Balanced treated telemetry) (few : treated + 1 < 2 ^ 32) (risk : Bool)
    (latency : Nat) : Balanced (treated + 1) (telemetry.count risk latency) := by
  obtain ⟨processed, approved, rejected⟩ := balanced.count_eq few risk latency
  obtain ⟨sum, seen⟩ := balanced
  constructor
  case sum => cases risk <;> simp at approved rejected <;> omega
  case few => omega

end Balanced

def Counter.Counts : Counter → Prop
  | .messagesProcessed => True
  | .riskApproved => True
  | .riskRejected => True
  | _ => False

def Register.Counts : Register → Prop
  | .counter ofWorker => ofWorker.Counts
  | .framesCaptured => True
  | _ => False

structure Publishing {T : Type} (session : Session T) (old : Telemetry) : Prop where
  storing : Registers.Storing session.shared (Counter.value old)
    (Counter.value session.accounts.telemetry) session.stores
  before : Balanced session.handoff.parsed.length old
  now : Balanced session.handoff.parsed.length session.accounts.telemetry
  ordered : ∀ counter : Counter, counter.Counts →
    counter.value old ≤ counter.value session.accounts.telemetry
  lag : session.accounts.telemetry.messagesProcessed ≤ old.messagesProcessed + 1

structure Sound (sample : Sample) : Prop where
  gate : sample.processed ≤ sample.approved + sample.rejected + 1
  captured : sample.processed ≤ sample .framesCaptured + 1
  writePos : sample .writePos < queueCapacity.size
  readPos : sample .readPos < queueCapacity.size

theorem Sound.queueLen_lt {sample : Sample} (sound : Sound sample) :
    sample.queueLen < queueCapacity.size := by
  have writePos := sound.writePos
  have readPos := sound.readPos
  unfold Sample.queueLen Capacity.available
  split <;> omega

def Grown (earlier later : Sample) : Prop :=
  ∀ register : Register, register.Counts → earlier register ≤ later register

theorem Grown.refl (sample : Sample) : Grown sample sample :=
  fun _ _ => Nat.le_refl _

theorem Grown.trans {first second third : Sample} (before : Grown first second)
    (behind : Grown second third) : Grown first third :=
  fun register counts => Nat.le_trans (before register counts) (behind register counts)

namespace Session

variable {T : Type} {session : Session T}

def pushing (session : Session T) : Nat := session.handoff.sending.packet?.toList.length

theorem receive_frame (packet : T) :
    let now := session.receive packet
    now.monitor = session.monitor ∧ now.shared = session.shared ∧
      now.framesCaptured = session.framesCaptured ∧ session.received ≤ now.received := by
  unfold receive
  split
  next => exact ⟨rfl, rfl, rfl, Nat.le_refl _⟩
  next =>
    split
    next => exact ⟨rfl, rfl, rfl, Nat.le_succ _⟩
    next => exact ⟨rfl, rfl, rfl, Nat.le_refl _⟩

theorem send_frame :
    session.send.monitor = session.monitor ∧ session.send.shared = session.shared ∧
      session.send.received = session.received := by
  unfold send
  split
  next => exact ⟨rfl, rfl, rfl⟩
  next => split <;> exact ⟨rfl, rfl, rfl⟩

theorem work_frame (protocol : ProtocolType) (observe : T → Packet) :
    let now := session.work protocol observe
    now.monitor = session.monitor ∧ now.framesCaptured = session.framesCaptured ∧
      now.received = session.received := by
  unfold work
  split
  next => exact ⟨rfl, rfl, rfl⟩
  next => split <;> exact ⟨rfl, rfl, rfl⟩

structure Ok (protocol : ProtocolType) (session : Session T) : Prop where
  handoff : Handoff.Ok queueCapacity session.handoff
  accounts : session.accounts =
    (session.handoff.parsed.map Prod.snd).foldl (Accounts.step protocol) {}
  publishing : ∃ old, Publishing session old
  captured : session.framesCaptured = session.rxCount
  received : session.rxCount + session.counting.toNat + session.pushing = session.received
  accepted : session.handoff.queue.accepted.length + session.pushing ≤ session.received

namespace Ok

variable {protocol : ProtocolType}

theorem start (cells : Nat → T) : Ok protocol (start cells) where
  handoff := Handoff.Ok.start cells
  accounts := rfl
  publishing := ⟨{}, {
    storing := ⟨List.nodup_nil, fun _ missing => absurd missing List.not_mem_nil, fun _ _ => rfl⟩
    before := Balanced.start
    now := Balanced.start
    ordered := fun _ _ => Nat.le_refl _
    lag := Nat.le_succ _ }⟩
  captured := rfl
  received := rfl
  accepted := Nat.le_refl 0

theorem parsed_le (ok : Ok protocol session) :
    session.handoff.parsed.length ≤ session.handoff.queue.accepted.length := by
  simp [← ok.handoff.accepted_eq]

theorem sound (ok : Ok protocol session) : Sound session.memory := by
  obtain ⟨old, publishing⟩ := ok.publishing
  have processed := publishing.storing.between (publishing.ordered .messagesProcessed trivial)
  have approved := publishing.storing.between (publishing.ordered .riskApproved trivial)
  have rejected := publishing.storing.between (publishing.ordered .riskRejected trivial)
  have sum := publishing.before.sum
  have lag := publishing.lag
  simp only [Counter.value] at processed approved rejected
  have positive : 0 < queueCapacity.size := by decide
  constructor
  case gate =>
    simp only [Sample.processed, Sample.approved, Sample.rejected, memory]
    omega
  case captured =>
    have few := publishing.now.few
    have parsed := ok.parsed_le
    have accepted := ok.accepted
    have received := ok.received
    have captured := ok.captured
    have counting := Bool.toNat_le session.counting
    simp only [Sample.processed, memory]
    omega
  case writePos =>
    simp only [memory, ok.handoff.queue.ring.writePos]
    exact Nat.mod_lt _ positive
  case readPos =>
    simp only [memory, ok.handoff.queue.ring.readPos]
    exact Nat.mod_lt _ positive

theorem elsewhere (ok : Ok protocol session) {now : Session T}
    (handoff : Handoff.Ok queueCapacity now.handoff)
    (parsed : now.handoff.parsed = session.handoff.parsed)
    (worker : now.accounts = session.accounts ∧ now.stores = session.stores ∧
      now.shared = session.shared)
    (captured : now.framesCaptured = now.rxCount)
    (received : now.rxCount + now.counting.toNat + now.pushing = now.received)
    (accepted : now.handoff.queue.accepted.length + now.pushing ≤ now.received) :
    Ok protocol now := by
  obtain ⟨accounts, stores, shared⟩ := worker
  obtain ⟨old, publishing⟩ := ok.publishing
  constructor
  case handoff => exact handoff
  case accounts => rw [accounts, parsed, ok.accounts]
  case publishing =>
    obtain ⟨storing, before, balanced, ordered, lag⟩ := publishing
    exact ⟨old, by rwa [accounts, stores, shared], by rwa [parsed], by rwa [parsed, accounts],
      by rwa [accounts], by rwa [accounts]⟩
  case captured => exact captured
  case received => exact received
  case accepted => exact accepted

theorem receive (ok : Ok protocol session) (packet : T) : Ok protocol (session.receive packet) := by
  unfold Session.receive
  split
  next => exact ok
  next =>
    split
    next ready =>
      have received := ok.received
      have accepted := ok.accepted
      have idle := ok.handoff.idle ready
      simp only [pushing, ready, Sending.packet?, Option.toList_none, List.length_nil] at received accepted
      refine ok.elsewhere (ok.handoff.startSend idle packet) rfl ⟨rfl, rfl, rfl⟩ ok.captured ?_ ?_
      next =>
        simp only [pushing, Handoff.startSend, Sending.packet?, Option.toList_some, List.length_singleton]
        omega
      next =>
        simp only [(ok.handoff.startSend_outstanding idle packet).1]
        simp only [pushing, Handoff.startSend, Sending.packet?, Option.toList_some, List.length_singleton]
        omega
    next => exact ok

theorem send (ok : Ok protocol session) (few : session.received < 2 ^ 32) :
    Ok protocol session.send ∧ session.framesCaptured ≤ session.send.framesCaptured := by
  have captured := ok.captured
  have received := ok.received
  have accepted := ok.accepted
  unfold Session.send
  split
  next counting =>
    rw [counting, Bool.toNat_true] at received
    have next : u64 (session.rxCount + 1) = session.rxCount + 1 := Nat.mod_eq_of_lt (by omega)
    rw [next]
    refine ⟨ok.elsewhere ok.handoff rfl ⟨rfl, rfl, rfl⟩ rfl ?_ accepted, by simp only; omega⟩
    simp only [pushing, Bool.toNat_false] at received ⊢
    omega
  next idle =>
    have notCounting : session.counting = false := by simpa using idle
    cases sending : session.handoff.sending.packet? with
    | none => exact ⟨ok, Nat.le_refl _⟩
    | some packet =>
      simp only [pushing, sending, notCounting, Bool.toNat_false, Option.toList_some,
        List.length_singleton] at received accepted
      obtain ⟨handoff, parsed, ⟨still, same, -⟩ | ⟨ready, grown, -⟩ | ⟨ready, -, same, -⟩⟩ :=
        ok.handoff.send_cases session.gRunning sending
      next =>
        refine ⟨ok.elsewhere handoff parsed ⟨rfl, rfl, rfl⟩ captured ?_ ?_, Nat.le_refl _⟩
        next => simp [pushing, still]; omega
        next => simp [pushing, still, same]; omega
      next =>
        refine ⟨ok.elsewhere handoff parsed ⟨rfl, rfl, rfl⟩ captured ?_ ?_, Nat.le_refl _⟩
        next => simp [pushing, ready, Sending.packet?]; omega
        next => simp [pushing, ready, Sending.packet?, grown]; omega
      next =>
        refine ⟨ok.elsewhere handoff parsed ⟨rfl, rfl, rfl⟩ captured ?_ ?_, Nat.le_refl _⟩
        next => simp [pushing, ready, Sending.packet?]; omega
        next => simp [pushing, ready, Sending.packet?, same]; omega

theorem store (ok : Ok protocol session) {counter : Counter} {stores : List Counter}
    (here : session.stores = counter :: stores) :
    let now : Session T :=
      { session with
        stores
        shared := Function.update session.shared counter (counter.value session.accounts.telemetry) }
    Ok protocol now ∧
      ∀ counted : Counter, counted.Counts → session.shared counted ≤ now.shared counted := by
  obtain ⟨old, publishing⟩ := ok.publishing
  have storing := publishing.storing
  rw [here] at storing
  refine ⟨{ ok with publishing := ⟨old, { publishing with storing := storing.store }⟩ }, ?_⟩
  intro counted counts
  exact storing.store_grows (publishing.ordered counted counts)

theorem treat (ok : Ok protocol session) (few : session.received < 2 ^ 32) (here : session.stores = [])
    (observe : T → Packet) {packet : T} {handoff : Handoff T Packet}
    (handoffOk : Handoff.Ok queueCapacity handoff)
    (sending : handoff.sending = session.handoff.sending)
    (accepted : handoff.queue.accepted = session.handoff.queue.accepted)
    (parsed : handoff.parsed = session.handoff.parsed ++ [(packet, observe packet)]) :
    let screening := session.accounts.ingress.screen protocol (observe packet)
    Ok protocol
      { session with
        handoff
        accounts := session.accounts.step protocol (observe packet)
        stores := if screening.risk.isSome then Counter.stores else [] } := by
  intro screening
  obtain ⟨old, publishing⟩ := ok.publishing
  have current := publishing.storing
  rw [here] at current
  have shared := current.finished
  have balanced := publishing.now
  have treated : handoff.parsed.length = session.handoff.parsed.length + 1 := by simp [parsed]
  have room : session.handoff.parsed.length + 1 < 2 ^ 32 := by
    have known := handoffOk.accepted_eq
    have before := ok.accepted
    have inside : handoff.parsed.length ≤ handoff.queue.accepted.length := by simp [← known]
    rw [accepted] at inside
    omega
  constructor
  case handoff => exact handoffOk
  case accounts =>
    rw [parsed, List.map_append, List.foldl_append, ← ok.accounts]
    rfl
  case publishing =>
    refine ⟨session.accounts.telemetry, ?_⟩
    obtain ⟨duplicate, same⟩ | ⟨passes, risk, count⟩ :=
      Balanced.telemetry_cases protocol session.accounts (observe packet)
    next =>
      constructor
      case storing =>
        rw [show screening.risk.isSome = false from duplicate, same, shared]
        exact ⟨List.nodup_nil, fun _ missing => absurd missing List.not_mem_nil, fun _ _ => rfl⟩
      case before => exact treated ▸ balanced.later
      case now => exact treated ▸ same ▸ balanced.later
      case ordered => exact fun counter _ => by rw [same]
      case lag => exact same ▸ Nat.le_succ _
    next =>
      obtain ⟨processed, approved, rejected⟩ :=
        balanced.count_eq room risk (observe packet).latencyNs
      constructor
      case storing =>
        rw [show screening.risk.isSome = true from passes, shared, if_pos rfl]
        exact .start Counter.stores_nodup Counter.stores_all
      case before => exact treated ▸ balanced.later
      case now => exact treated ▸ count ▸ balanced.count room risk _
      case ordered =>
        intro counter counts
        rw [count]
        cases counter with
        | messagesProcessed => exact (Nat.le_succ _).trans processed.ge
        | riskApproved => exact (Nat.le_add_right _ _).trans approved.ge
        | riskRejected => exact (Nat.le_add_right _ _).trans rejected.ge
        | _ => exact counts.elim
      case lag => exact (count ▸ processed).le
  case captured => exact ok.captured
  case received => simpa only [pushing, sending] using ok.received
  case accepted => simpa only [pushing, sending, accepted] using ok.accepted

theorem work (ok : Ok protocol session) (few : session.received < 2 ^ 32) (observe : T → Packet) :
    Ok protocol (session.work protocol observe) ∧
      ∀ counter : Counter, counter.Counts →
        session.shared counter ≤ (session.work protocol observe).shared counter := by
  unfold Session.work
  split
  next counter stores here => exact ok.store here
  next here =>
    obtain ⟨handoff, sending, accepted, ⟨packet, rest, head, -, -, parsed⟩ | ⟨head, -, parsed⟩⟩ :=
      ok.handoff.work_cases packetsPerBatch observe
    next =>
      cases batch : session.handoff.batch with
      | nil => simp [batch] at head
      | cons first others =>
        obtain rfl : first = packet := by simpa [batch] using head
        refine ⟨ok.treat few here observe handoff sending accepted parsed, ?_⟩
        exact fun _ _ => Nat.le_refl _
    next =>
      cases batch : session.handoff.batch with
      | cons first others => simp [batch] at head
      | nil =>
        refine ⟨ok.elsewhere handoff parsed ⟨rfl, rfl, rfl⟩ ok.captured ?_ ?_, fun _ _ => Nat.le_refl _⟩
        next => simpa only [pushing, sending] using ok.received
        next => simpa only [pushing, sending, accepted] using ok.accepted

theorem step (ok : Ok protocol session) (event : Event T) (few : session.received < 2 ^ 32) :
    Ok protocol (session.step protocol event) ∧
      Grown session.memory (session.step protocol event).memory := by
  have grown {now : Session T}
      (worker : ∀ counter : Counter, counter.Counts →
        session.shared counter ≤ now.shared counter)
      (receiver : session.framesCaptured ≤ now.framesCaptured) :
      Grown session.memory now.memory := by
    intro register counts
    cases register with
    | counter counter => exact worker counter counts
    | framesCaptured => exact receiver
    | _ => exact counts.elim
  cases event with
  | receive packet =>
    obtain ⟨-, shared, frames, -⟩ := session.receive_frame packet
    exact ⟨ok.receive packet, grown (fun _ _ => shared ▸ Nat.le_refl _) frames.ge⟩
  | send =>
    obtain ⟨sent, receiver⟩ := ok.send few
    exact ⟨sent, grown (fun _ _ => session.send_frame.2.1 ▸ Nat.le_refl _) receiver⟩
  | work observe =>
    obtain ⟨worked, worker⟩ := ok.work few observe
    exact ⟨worked, grown worker (session.work_frame protocol observe).2.1.ge⟩
  | monitor =>
    exact ⟨ok.elsewhere ok.handoff rfl ⟨rfl, rfl, rfl⟩ ok.captured ok.received ok.accepted,
      Grown.refl _⟩
  | stop =>
    exact ⟨ok.elsewhere ok.handoff rfl ⟨rfl, rfl, rfl⟩ ok.captured ok.received ok.accepted,
      Grown.refl _⟩

end Ok

end Session

namespace Sample

theorem loads_nodup (final : Bool) : (loads final).Nodup := by
  cases final <;> decide

theorem counts_mem_loads (final : Bool) {register : Register} (counts : register.Counts) :
    register ∈ loads final := by
  cases register with
  | counter counter =>
    cases counter with
    | messagesProcessed => cases final <;> decide
    | riskApproved => cases final <;> decide
    | riskRejected => cases final <;> decide
    | _ => exact counts.elim
  | framesCaptured => cases final <;> decide
  | _ => exact counts.elim

theorem writePos_mem_loads (final : Bool) : Register.writePos ∈ loads final := by
  cases final <;> decide

theorem readPos_mem_loads (final : Bool) : Register.readPos ∈ loads final := by
  cases final <;> decide

-- The processed packets are loaded first.
theorem loads_of_processed {final : Bool} {pending : List Register} (suffix : pending <:+ loads final)
    (first : Register.counter .messagesProcessed ∈ pending) : pending = loads final := by
  have nodup := loads_nodup final
  have head : loads final = .counter .messagesProcessed :: (loads final).tail := by
    cases final <;> rfl
  rw [head] at suffix nodup ⊢
  obtain all | behind := List.suffix_cons_iff.mp suffix
  next => exact all
  next => exact absurd (behind.subset first) (List.nodup_cons.mp nodup).1

end Sample

open Registers (expected expected_all expected_nil expected_load expected_mono)

structure Loading (memory : Sample) (rows : List Row) (final : Bool) (pending : List Register)
    (sample : Sample) : Prop where
  suffix : pending <:+ Sample.loads final
  sound : Sound (expected sample memory pending)
  below : ∀ row ∈ rows, Grown row.sample (expected sample memory pending)
  upper : Grown (expected sample memory pending) memory

namespace Loading

variable {memory sample : Sample} {rows : List Row} {final : Bool} {pending : List Register}

theorem expected_loads (counts : Register) (counted : counts.Counts) :
    expected sample memory (Sample.loads final) counts = memory counts :=
  expected_all (Sample.counts_mem_loads final counted)

theorem sound_loads (sound : Sound memory) : Sound (expected sample memory (Sample.loads final)) := by
  obtain ⟨gate, captured, writePos, readPos⟩ := sound
  simp only [Sample.processed, Sample.approved, Sample.rejected] at gate captured
  constructor
  case gate =>
    simp only [Sample.processed, Sample.approved, Sample.rejected]
    rw [expected_loads (.counter .messagesProcessed) trivial,
      expected_loads (.counter .riskApproved) trivial, expected_loads (.counter .riskRejected) trivial]
    exact gate
  case captured =>
    simp only [Sample.processed]
    rw [expected_loads (.counter .messagesProcessed) trivial, expected_loads .framesCaptured trivial]
    exact captured
  case writePos => rwa [expected_all (Sample.writePos_mem_loads final)]
  case readPos => rwa [expected_all (Sample.readPos_mem_loads final)]

theorem start (sound : Sound memory) (below : ∀ row ∈ rows, Grown row.sample memory) :
    Loading memory rows final (Sample.loads final) sample where
  suffix := List.suffix_rfl
  sound := sound_loads sound
  below := by
    intro row member register counts
    rw [expected_loads register counts]
    exact below row member register counts
  upper := fun register counts => (expected_loads register counts).le

theorem load {register : Register} (loading : Loading memory rows final (register :: pending) sample) :
    Loading memory rows final pending (Function.update sample register (memory register)) := by
  have fresh : register ∉ pending :=
    (List.nodup_cons.mp ((Sample.loads_nodup final).sublist loading.suffix.sublist)).1
  have same : expected (Function.update sample register (memory register)) memory pending =
      expected sample memory (register :: pending) := funext fun _ => expected_load fresh
  constructor
  case suffix => exact (List.suffix_cons register pending).trans loading.suffix
  case sound => exact same ▸ loading.sound
  case below => exact same ▸ loading.below
  case upper => exact same ▸ loading.upper

theorem index_lt {now : Sample} {register : Register} {bound : Nat}
    (before : expected sample memory pending register < bound) (behind : now register < bound) :
    expected sample now pending register < bound := by
  unfold expected at before ⊢
  split at before <;> simp_all

theorem later (loading : Loading memory rows final pending sample) {now : Sample}
    (grown : Grown memory now) (sound : Sound now) : Loading now rows final pending sample := by
  have onward : Grown (expected sample memory pending) (expected sample now pending) :=
    fun register counts => expected_mono (grown register counts)
  constructor
  case suffix => exact loading.suffix
  case sound =>
    by_cases first : Register.counter .messagesProcessed ∈ pending
    next =>
      rw [Sample.loads_of_processed loading.suffix first]
      exact sound_loads sound
    next =>
      obtain ⟨gate, captured, writePos, readPos⟩ := loading.sound
      have loaded : Sample.processed (expected sample now pending) =
          Sample.processed (expected sample memory pending) := by
        simp only [Sample.processed, expected, if_neg first]
      have approved := onward (.counter .riskApproved) trivial
      have rejected := onward (.counter .riskRejected) trivial
      have frames := onward .framesCaptured trivial
      constructor
      case gate =>
        simp only [Sample.approved, Sample.rejected] at gate ⊢
        omega
      case captured => omega
      case writePos => exact index_lt writePos sound.writePos
      case readPos => exact index_lt readPos sound.readPos
  case below => exact fun row member => (loading.below row member).trans onward
  case upper =>
    intro register counts
    have upper := loading.upper register counts
    have grows := grown register counts
    unfold expected at upper ⊢
    split at upper
    next waits => rw [if_pos waits]
    next done =>
      rw [if_neg done]
      exact upper.trans grows

end Loading

structure Monitor.Ok (memory : Sample) (monitor : Monitor) : Prop where
  sound : ∀ row ∈ monitor.rows, Sound row.sample
  grown : monitor.rows.Pairwise fun earlier later => Grown earlier.sample later.sample
  below : ∀ row ∈ monitor.rows, Grown row.sample memory
  loading : ∀ final pending, monitor.phase = .loading final pending →
    Loading memory monitor.rows final pending monitor.sample
  last : monitor.lastProcessed = 0 ∨
    ∃ row ∈ monitor.rows, row.sample.processed = monitor.lastProcessed
  sum : (monitor.rows.map Row.deltaProcessed).sum = monitor.lastProcessed
  integral : ∀ earlier row later, monitor.rows = earlier ++ row :: later → row.final = false →
    ((earlier ++ [row]).map Row.deltaProcessed).sum = row.sample.processed

namespace Monitor.Ok

variable {memory : Sample} {monitor : Monitor}

theorem start : Ok memory {} where
  sound := fun _ missing => absurd missing List.not_mem_nil
  grown := List.Pairwise.nil
  below := fun _ missing => absurd missing List.not_mem_nil
  loading := by simp
  last := .inl rfl
  sum := rfl
  integral := by simp

theorem later (ok : Ok memory monitor) {now : Sample} (grown : Grown memory now) (sound : Sound now) :
    Ok now monitor :=
  { ok with
    below := fun row member => (ok.below row member).trans grown
    loading := fun final pending phase => (ok.loading final pending phase).later grown sound }

theorem write (ok : Ok memory monitor) {row : Row} {phase : Phase} {lastProcessed : Nat}
    (loading : Loading memory monitor.rows row.final [] row.sample)
    (outside : ∀ final pending, phase ≠ .loading final pending)
    (delta : monitor.lastProcessed + row.deltaProcessed = lastProcessed)
    (last : lastProcessed = monitor.lastProcessed ∨ row.sample.processed = lastProcessed)
    (integral : row.final = false → lastProcessed = row.sample.processed) :
    Ok memory { monitor with phase, lastProcessed, rows := monitor.rows ++ [row] } := by
  have whole : expected row.sample memory [] = row.sample := funext fun _ => expected_nil
  have sound := whole ▸ loading.sound
  have below := whole ▸ loading.below
  have upper := whole ▸ loading.upper
  have sum : ((monitor.rows ++ [row]).map Row.deltaProcessed).sum = lastProcessed := by
    simp [ok.sum, delta]
  constructor
  case sound =>
    rw [List.forall_mem_append, List.forall_mem_singleton]
    exact ⟨ok.sound, sound⟩
  case grown =>
    rw [List.pairwise_append]
    refine ⟨ok.grown, List.pairwise_singleton _ _, ?_⟩
    simpa using below
  case below =>
    rw [List.forall_mem_append, List.forall_mem_singleton]
    exact ⟨ok.below, upper⟩
  case loading => exact fun final pending here => absurd here (outside final pending)
  case last =>
    obtain same | new := last
    next =>
      obtain zero | ⟨before, member, processed⟩ := ok.last
      next => exact .inl (same.trans zero)
      next => exact .inr ⟨before, List.mem_append_left _ member, processed.trans same.symm⟩
    next => exact .inr ⟨row, List.mem_append_right _ (List.mem_singleton_self row), new⟩
  case sum => exact sum
  case integral =>
    intro earlier other later split regular
    obtain ⟨behind, nothing, here⟩ | ⟨others, here, behind⟩ :=
      List.append_eq_append_iff.mp split
    next =>
      cases behind with
      | nil =>
        obtain ⟨rfl, rfl⟩ : row = other ∧ later = [] := by simpa using here
        rw [List.append_nil] at nothing
        rw [nothing, sum]
        exact integral regular
      | cons first rest => simp at here
    next =>
      cases others with
      | nil =>
        obtain ⟨rfl, rfl⟩ : other = row ∧ later = [] := by simpa using behind
        rw [List.append_nil] at here
        rw [← here, sum]
        exact integral regular
      | cons first rest =>
        obtain ⟨rfl, -⟩ : other = first ∧ later = rest ++ [row] := by simpa using behind
        exact ok.integral earlier other rest here regular

theorem step (ok : Ok memory monitor) (sound : Sound memory) (gRunning : Bool) :
    Ok memory (monitor.step gRunning memory) := by
  unfold Monitor.step
  split
  case h_1 =>
    refine { ok with loading := ?_ }
    rintro final pending ⟨⟩
    exact Loading.start sound ok.below
  case h_2 final register pending here =>
    refine { ok with loading := ?_ }
    rintro _ _ ⟨⟩
    exact (ok.loading _ _ here).load
  case h_3 here =>
    exact @write _ _ ok monitor.finalRow _ _ (ok.loading _ _ here) (by simp) (Nat.add_zero _) (.inl rfl)
      (by simp [finalRow])
  case h_4 here =>
    have loading := ok.loading _ _ here
    -- The packets of the row before are among those of this one.
    have ahead : monitor.lastProcessed ≤ monitor.sample.processed := by
      obtain zero | ⟨row, member, processed⟩ := ok.last
      next => exact zero ▸ Nat.zero_le _
      next =>
        have below := loading.below row member (.counter .messagesProcessed) trivial
        rw [expected_nil] at below
        exact processed ▸ below
    refine @write _ _ ok monitor.nextRow _ _ loading (by simp) ?_ (.inr rfl) (fun _ => rfl)
    simp only [nextRow]
    rw [if_pos ahead]
    exact Nat.add_sub_cancel' ahead
  case h_5 => exact ok

end Monitor.Ok

namespace Session

variable {T : Type} {protocol : ProtocolType} {session : Session T}

theorem step_received (event : Event T) :
    session.received ≤ (session.step protocol event).received := by
  cases event with
  | receive packet => exact (session.receive_frame packet).2.2.2
  | send => exact session.send_frame.2.2.ge
  | work observe => exact (session.work_frame protocol observe).2.2.ge
  | monitor => exact Nat.le_refl _
  | stop => exact Nat.le_refl _

theorem run_ok (cells : Nat → T) (schedule : List (Event T))
    (few : (run protocol cells schedule).received < 2 ^ 32) :
    Ok protocol (run protocol cells schedule) ∧
      (run protocol cells schedule).monitor.Ok (run protocol cells schedule).memory := by
  induction schedule using List.reverseRecOn with
  | nil => exact ⟨Ok.start cells, Monitor.Ok.start⟩
  | append_singleton schedule event ih =>
    simp only [run, List.foldl_append, List.foldl_cons, List.foldl_nil] at few ih ⊢
    generalize schedule.foldl (step protocol) (start cells) = session at few ih ⊢
    have before := Nat.lt_of_le_of_lt (step_received event) few
    obtain ⟨ok, monitor⟩ := ih before
    obtain ⟨stepped, grown⟩ := ok.step event before
    refine ⟨stepped, ?_⟩
    have later := monitor.later grown stepped.sound
    cases event with
    | monitor => exact later.step stepped.sound _
    | receive packet => exact (session.receive_frame packet).1 ▸ later
    | send => exact session.send_frame.1 ▸ later
    | work observe => exact (session.work_frame protocol observe).1 ▸ later
    | stop => exact later

theorem rows_consistent (cells : Nat → T) (schedule : List (Event T))
    (few : (run protocol cells schedule).received < 2 ^ 32) :
    let rows := (run protocol cells schedule).monitor.rows
    (∀ row ∈ rows,
      row.sample.processed ≤ row.sample.approved + row.sample.rejected + 1 ∧
        row.sample.processed ≤ row.sample .framesCaptured + 1 ∧
        row.sample.queueLen < queueCapacity.size) ∧
    rows.Pairwise (fun earlier later =>
      earlier.sample.processed ≤ later.sample.processed ∧
        earlier.sample.approved ≤ later.sample.approved ∧
        earlier.sample.rejected ≤ later.sample.rejected ∧
        earlier.sample .framesCaptured ≤ later.sample .framesCaptured) ∧
    ∀ earlier row later, rows = earlier ++ row :: later → row.final = false →
      ((earlier ++ [row]).map Row.deltaProcessed).sum = row.sample.processed := by
  obtain ⟨-, monitor⟩ := run_ok cells schedule few
  refine ⟨?_, ?_, monitor.integral⟩
  next =>
    intro row member
    have sound := monitor.sound row member
    exact ⟨sound.gate, sound.captured, sound.queueLen_lt⟩
  next =>
    refine monitor.grown.imp ?_
    intro earlier later grown
    exact ⟨grown (.counter .messagesProcessed) trivial, grown (.counter .riskApproved) trivial,
      grown (.counter .riskRejected) trivial, grown .framesCaptured trivial⟩

-- The worker has stored the first of its counters, and the receiver has not counted the packet yet.
theorem rows_consistent_behind :
    let schedule : List (Event Nat) :=
      .receive 7 :: List.replicate 3 .send ++ List.replicate 7 (.work fun _ => nullPacket) ++
        List.replicate 13 .monitor
    let rows := (run .fix (fun _ => 0) schedule).monitor.rows
    rows.map (fun row => (row.sample.processed, row.sample.approved + row.sample.rejected,
      row.sample .framesCaptured, row.sample.queueLen)) = [(1, 0, 0, 0)] ∧
    ∀ row ∈ rows,
      row.sample.processed ≤ row.sample.approved + row.sample.rejected + 1 ∧
        row.sample.processed ≤ row.sample .framesCaptured + 1 ∧
        row.sample.queueLen < queueCapacity.size := by
  intro schedule rows
  exact ⟨by decide +kernel, (rows_consistent (fun _ => 0) schedule (by decide +kernel)).1⟩

end Session

end HftFixEngine.Monitoring
