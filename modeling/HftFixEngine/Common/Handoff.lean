import HftFixEngine.Common.SPSCFifo

set_option autoImplicit false

namespace HftFixEngine.Common

inductive Sending (T : Type) where
  | ready
  | call (packet : T)
  | failed (packet : T)

namespace Sending

variable {T : Type}

def packet? : Sending T → Option T
  | .ready => none
  | .call packet => some packet
  | .failed packet => some packet

theorem ready_of_none {sending : Sending T} (none : sending.packet? = none) : sending = .ready := by
  cases sending with
  | ready => rfl
  | _ => nomatch none

theorem pushing_of_some {sending : Sending T} {packet : T}
    (under : sending.packet? = some packet) : sending = .call packet ∨ sending = .failed packet := by
  cases sending with
  | ready => nomatch under
  | call item => exact .inl (congrArg Sending.call (Option.some.inj under))
  | failed item => exact .inr (congrArg Sending.failed (Option.some.inj under))

-- A call that has stored its index succeeds, one that ends without it fails.
def after (packet : T) (before now : Producer T) : Sending T :=
  match now with
  | .idle =>
    match before with
    | .pushStore _ _ => .ready
    | _ => .failed packet
  | _ => .call packet

end Sending

namespace Consumer

variable {T : Type}

def popped (before now : Consumer T) : List T :=
  match now with
  | .idle =>
    match before with
    | .popBatchCopy _ _ outputItems => outputItems
    | _ => []
  | _ => []

def Batching : Consumer T → Prop
  | .idle => True
  | .popBatch _ => True
  | .popBatchRefresh _ _ => True
  | .popBatchCopy _ _ _ => True
  | _ => False

end Consumer

namespace Producer

variable {T : Type}

def Pushing (packet : T) : Producer T → Prop
  | .push item => item = packet
  | .pushRefresh item _ => item = packet
  | .pushCopy item _ => item = packet
  | .pushStore item _ => item = packet
  | _ => False

end Producer

-- `observe` of a packet is what a look at it gives at that moment. A thread that has left its loop is
-- one that makes no more steps.
structure Handoff (T V : Type) where
  queue : Execution T
  sending : Sending T := .ready
  batch : List T := []
  parsed : List (T × V) := []

namespace Handoff

variable {T V : Type} (capacity : Capacity) (maxItems : Nat)

def startSend (packet : T) (handoff : Handoff T V) : Handoff T V :=
  { handoff with
    queue := handoff.queue.enterPush (.push packet)
    sending := .call packet }

def send (gRunning : Bool) (handoff : Handoff T V) : Handoff T V :=
  match handoff.sending with
  | .ready => handoff
  | .call packet =>
    let queue := handoff.queue.produce capacity
    { handoff with
      queue
      sending := .after packet handoff.queue.producer queue.producer }
  | .failed packet =>
    if gRunning then handoff.startSend packet else { handoff with sending := .ready }

def work (observe : T → V) (handoff : Handoff T V) : Handoff T V :=
  match handoff.batch with
  | packet :: batch =>
    { handoff with
      batch
      parsed := handoff.parsed ++ [(packet, observe packet)] }
  | [] =>
    match handoff.queue.consumer with
    | .idle => { handoff with queue := handoff.queue.enterPop (.popBatch maxItems) }
    | _ =>
      let queue := handoff.queue.consume capacity id
      { handoff with
        queue
        batch := Consumer.popped handoff.queue.consumer queue.consumer }

def outstanding (handoff : Handoff T V) : List T :=
  handoff.batch ++ handoff.queue.consumer.moved ++ handoff.queue.unread capacity

end Handoff

namespace Execution

variable {T : Type} (capacity : Capacity) {exec : Execution T}

theorem enterPush_accepted (call : Producer T) :
    (exec.enterPush call).accepted = exec.accepted ∧
      (exec.enterPush call).returned = exec.returned := by
  unfold enterPush
  split <;> exact ⟨rfl, rfl⟩

theorem enterPop_accepted (call : Consumer T) :
    (exec.enterPop call).accepted = exec.accepted ∧
      (exec.enterPop call).returned = exec.returned := by
  unfold enterPop
  split <;> exact ⟨rfl, rfl⟩

theorem consume_accepted (movedFrom : T → T) :
    (exec.consume capacity movedFrom).accepted = exec.accepted := by
  unfold consume
  split
  case h_8 => split <;> rfl
  all_goals rfl

theorem consume_batching (movedFrom : T → T) (batching : exec.consumer.Batching) :
    let now := exec.consume capacity movedFrom
    now.consumer.Batching ∧
      now.returned = exec.returned ++ Consumer.popped exec.consumer now.consumer := by
  cases phase : exec.consumer with
  | popBatch maxItems =>
    simp only [consume, phase]
    split <;> simp [Consumer.Batching, Consumer.popped, startBatchMove]
  | popBatchRefresh maxItems currentRead =>
    simp only [consume, phase]
    split <;> simp [Consumer.Batching, Consumer.popped, startBatchMove]
  | popBatchCopy currentRead count outputItems =>
    simp only [consume, phase]
    split <;> simp [Consumer.Batching, Consumer.popped, Execution.release, Execution.read]
  | idle => simp [consume, phase, Consumer.Batching, Consumer.popped]
  | _ => simp [phase, Consumer.Batching] at batching

theorem produce_returned : (exec.produce capacity).returned = exec.returned := by
  unfold produce
  split
  case h_8 => split <;> rfl
  all_goals rfl

theorem produce_pushing {packet : T} (pushing : exec.producer.Pushing packet) :
    let now := exec.produce capacity
    (now.producer = .idle ∧ now.accepted = exec.accepted ++ [packet] ∧
        Sending.after packet exec.producer now.producer = .ready) ∨
      (now.producer = .idle ∧ now.accepted = exec.accepted ∧
        Sending.after packet exec.producer now.producer = .failed packet) ∨
      (now.producer.Pushing packet ∧ now.accepted = exec.accepted ∧
        Sending.after packet exec.producer now.producer = .call packet) := by
  cases phase : exec.producer with
  | push item =>
    have same : item = packet := by simpa [phase, Producer.Pushing] using pushing
    simp only [produce, phase]
    split <;> simp [Sending.after, Producer.Pushing, same]
  | pushRefresh item currentWrite =>
    have same : item = packet := by simpa [phase, Producer.Pushing] using pushing
    simp only [produce, phase]
    split <;> simp [Sending.after, Producer.Pushing, same]
  | pushCopy item currentWrite =>
    have same : item = packet := by simpa [phase, Producer.Pushing] using pushing
    simp [produce, phase, Sending.after, Producer.Pushing, same, Execution.write]
  | pushStore item currentWrite =>
    have same : item = packet := by simpa [phase, Producer.Pushing] using pushing
    simp [produce, phase, Sending.after, same, Execution.publish]
  | _ => simp [phase, Producer.Pushing] at pushing

end Execution

namespace Handoff

variable {T V : Type} {capacity : Capacity} {handoff : Handoff T V}

def SenderOk (producer : Producer T) : Sending T → Prop
  | .ready => producer = .idle
  | .call packet => producer.Pushing packet
  | .failed _ => producer = .idle

structure Ok (capacity : Capacity) (handoff : Handoff T V) : Prop where
  queue : ExecutionOk capacity handoff.queue
  batching : handoff.queue.consumer.Batching
  returned : handoff.queue.returned = handoff.parsed.map Prod.fst ++ handoff.batch
  sender : SenderOk handoff.queue.producer handoff.sending

namespace Ok

theorem start (cells : Nat → T) : Ok capacity ({ queue := { buffer := cells } } : Handoff T V) where
  queue := ExecutionOk.start cells
  batching := trivial
  returned := rfl
  sender := rfl

theorem idle (ok : Ok capacity handoff) (ready : handoff.sending = .ready) :
    handoff.queue.producer = .idle := by
  have sender := ok.sender
  rw [ready] at sender
  exact sender

theorem accepted_eq (ok : Ok capacity handoff) :
    handoff.parsed.map Prod.fst ++ handoff.outstanding capacity = handoff.queue.accepted := by
  rw [← ok.queue.accepted_eq, ok.returned]
  simp [outstanding]

theorem outstanding_eq (ok : Ok capacity handoff) :
    handoff.outstanding capacity = handoff.queue.accepted.drop handoff.parsed.length := by
  rw [← ok.accepted_eq, List.drop_left']
  simp

theorem startSend (ok : Ok capacity handoff) (idle : handoff.queue.producer = .idle) (packet : T) :
    Ok capacity (handoff.startSend packet) := by
  constructor
  case queue => exact ok.queue.act id (.push packet)
  case batching => simpa [Handoff.startSend] using ok.batching
  case returned => exact (Execution.enterPush_accepted _).2.trans ok.returned
  case sender =>
    simp only [Handoff.startSend, Execution.enterPush, idle]
    rfl

theorem outstanding_append (ok : Ok capacity handoff) {now : Handoff T V} (nowOk : Ok capacity now)
    (parsed : now.parsed = handoff.parsed) {items : List T}
    (accepted : now.queue.accepted = handoff.queue.accepted ++ items) :
    now.outstanding capacity = handoff.outstanding capacity ++ items := by
  have looked : handoff.parsed.length ≤ handoff.queue.accepted.length := by
    simp [← ok.accepted_eq]
  rw [nowOk.outstanding_eq, ok.outstanding_eq, accepted, parsed, List.drop_append_of_le_length looked]

theorem outstanding_same (ok : Ok capacity handoff) {now : Handoff T V} (nowOk : Ok capacity now)
    (parsed : now.parsed = handoff.parsed)
    (accepted : now.queue.accepted = handoff.queue.accepted) :
    now.outstanding capacity = handoff.outstanding capacity := by
  rw [nowOk.outstanding_eq, ok.outstanding_eq, accepted, parsed]

theorem startSend_outstanding (ok : Ok capacity handoff) (idle : handoff.queue.producer = .idle)
    (packet : T) :
    (handoff.startSend packet).queue.accepted = handoff.queue.accepted ∧
      (handoff.startSend packet).outstanding capacity = handoff.outstanding capacity := by
  have accepted : (handoff.startSend packet).queue.accepted = handoff.queue.accepted :=
    (Execution.enterPush_accepted _).1
  exact ⟨accepted, ok.outstanding_same (ok.startSend idle packet) rfl accepted⟩

theorem produce (ok : Ok capacity handoff) (sending : Sending T)
    (sender : SenderOk (handoff.queue.produce capacity).producer sending) :
    Ok capacity { handoff with queue := handoff.queue.produce capacity, sending } where
  queue := ok.queue.produce
  batching := by simpa using ok.batching
  returned := (Execution.produce_returned capacity).trans ok.returned
  sender := sender

theorem send_cases (ok : Ok capacity handoff) (gRunning : Bool) {packet : T}
    (sending : handoff.sending.packet? = some packet) :
    let now := handoff.send capacity gRunning
    Ok capacity now ∧ now.parsed = handoff.parsed ∧
      ((now.sending.packet? = some packet ∧ now.queue.accepted = handoff.queue.accepted ∧
          now.outstanding capacity = handoff.outstanding capacity) ∨
        (now.sending = .ready ∧ now.queue.accepted = handoff.queue.accepted ++ [packet] ∧
          now.outstanding capacity = handoff.outstanding capacity ++ [packet]) ∨
        (now.sending = .ready ∧ gRunning = false ∧
          now.queue.accepted = handoff.queue.accepted ∧
          now.outstanding capacity = handoff.outstanding capacity)) := by
  have sender := ok.sender
  obtain calling | failed := Sending.pushing_of_some sending
  next =>
    rw [calling] at sender
    unfold Handoff.send
    rw [calling]
    dsimp only
    obtain ⟨idle, accepted, after⟩ | ⟨idle, accepted, after⟩ | ⟨pushing, accepted, after⟩ :=
      Execution.produce_pushing capacity sender
    next =>
      rw [after]
      have nowOk := ok.produce .ready idle
      exact ⟨nowOk, rfl, .inr (.inl ⟨rfl, accepted, ok.outstanding_append nowOk rfl accepted⟩)⟩
    next =>
      rw [after]
      have nowOk := ok.produce (.failed packet) idle
      exact ⟨nowOk, rfl, .inl ⟨rfl, accepted, ok.outstanding_same nowOk rfl accepted⟩⟩
    next =>
      rw [after]
      have nowOk := ok.produce (.call packet) pushing
      exact ⟨nowOk, rfl, .inl ⟨rfl, accepted, ok.outstanding_same nowOk rfl accepted⟩⟩
  next =>
    rw [failed] at sender
    unfold Handoff.send
    rw [failed]
    dsimp only
    split
    next =>
      exact ⟨ok.startSend sender packet, rfl, .inl ⟨rfl, ok.startSend_outstanding sender packet⟩⟩
    next stopped =>
      have nowOk : Ok capacity { handoff with sending := .ready } := { ok with sender }
      refine ⟨nowOk, rfl, .inr (.inr ⟨rfl, ?_, rfl, ok.outstanding_same nowOk rfl rfl⟩)⟩
      simpa using stopped

theorem send (ok : Ok capacity handoff) (gRunning : Bool) :
    let now := handoff.send capacity gRunning
    Ok capacity now ∧ now.parsed = handoff.parsed ∧
      ∀ packet ∈ now.sending.packet?, packet ∈ handoff.sending.packet? := by
  cases sending : handoff.sending.packet? with
  | none =>
    have ready := Sending.ready_of_none sending
    simp [Handoff.send, ready, Sending.packet?, ok]
  | some packet =>
    obtain ⟨nowOk, parsed, ⟨still, -, -⟩ | ⟨ready, -, -⟩ | ⟨ready, -, -, -⟩⟩ :=
      ok.send_cases gRunning sending
    next => exact ⟨nowOk, parsed, still ▸ fun _ member => member⟩
    next => exact ⟨nowOk, parsed, by simp [ready, Sending.packet?]⟩
    next => exact ⟨nowOk, parsed, by simp [ready, Sending.packet?]⟩

theorem work_cases (ok : Ok capacity handoff) (maxItems : Nat) (observe : T → V) :
    let now := handoff.work capacity maxItems observe
    Ok capacity now ∧ now.sending = handoff.sending ∧ now.queue.accepted = handoff.queue.accepted ∧
      ((∃ packet rest, handoff.batch.head? = some packet ∧
          handoff.outstanding capacity = packet :: rest ∧ now.outstanding capacity = rest ∧
          now.parsed = handoff.parsed ++ [(packet, observe packet)]) ∨
        (handoff.batch.head? = none ∧
          now.outstanding capacity = handoff.outstanding capacity ∧
          now.parsed = handoff.parsed)) := by
  unfold Handoff.work
  split
  case h_1 packet batch ahead =>
    have returned := ok.returned
    rw [ahead] at returned
    refine ⟨{ ok with returned := ?_ }, rfl, rfl, .inl ⟨packet, _, by rw [ahead]; rfl, ?_, rfl, rfl⟩⟩
    next => simpa using returned
    next => simp [outstanding, ahead]
  case h_2 empty =>
    have returned := ok.returned
    rw [empty] at returned
    split
    next idle =>
      have nowOk : Ok capacity
          { handoff with queue := handoff.queue.enterPop (.popBatch maxItems) } := by
        constructor
        case queue => exact ok.queue.act id (.popBatch maxItems)
        case batching => simp [Execution.enterPop, idle, Consumer.Batching]
        case returned => exact (Execution.enterPop_accepted _).2.trans ok.returned
        case sender => simpa using ok.sender
      have accepted : (handoff.queue.enterPop (.popBatch maxItems)).accepted =
          handoff.queue.accepted := (Execution.enterPop_accepted _).1
      have same := ok.outstanding_same nowOk rfl accepted
      exact ⟨nowOk, rfl, accepted, .inr ⟨by rw [empty]; rfl, same, rfl⟩⟩
    next =>
      obtain ⟨batching, given⟩ :=
        Execution.consume_batching capacity id ok.batching
      have nowOk : Ok capacity
          { handoff with
            queue := handoff.queue.consume capacity id
            batch := Consumer.popped handoff.queue.consumer
              (handoff.queue.consume capacity id).consumer } := by
        constructor
        case queue => exact ok.queue.consume id
        case batching => exact batching
        case returned =>
          rw [given, returned]
          simp
        case sender => simpa using ok.sender
      have accepted : (handoff.queue.consume capacity id).accepted = handoff.queue.accepted :=
        Execution.consume_accepted capacity id
      have same := ok.outstanding_same nowOk rfl accepted
      exact ⟨nowOk, rfl, accepted, .inr ⟨by rw [empty]; rfl, same, rfl⟩⟩

end Ok

structure Carries (capacity : Capacity) (holds : T → Prop) (handoff : Handoff T V) : Prop where
  outstanding : ∀ packet ∈ handoff.outstanding capacity, holds packet
  sending : ∀ packet ∈ handoff.sending.packet?, holds packet

namespace Carries

variable {holds : T → Prop}

theorem start (cells : Nat → T) :
    Carries capacity holds ({ queue := { buffer := cells } } : Handoff T V) where
  outstanding := by
    rw [(Ok.start cells).outstanding_eq]
    nofun
  sending := nofun

theorem startSend (carries : Carries capacity holds handoff) (ok : Ok capacity handoff)
    (idle : handoff.queue.producer = .idle) {packet : T} (good : holds packet) :
    Carries capacity holds (handoff.startSend packet) where
  outstanding := by
    rw [(ok.startSend_outstanding idle packet).2]
    exact carries.outstanding
  sending := by
    rintro other ⟨⟩
    exact good

theorem send (carries : Carries capacity holds handoff) (ok : Ok capacity handoff)
    (gRunning : Bool) : Carries capacity holds (handoff.send capacity gRunning) := by
  cases sending : handoff.sending.packet? with
  | none =>
    have ready := Sending.ready_of_none sending
    simpa only [Handoff.send, ready] using carries
  | some packet =>
    have good := carries.sending packet sending
    obtain ⟨-, -, ⟨still, -, same⟩ | ⟨ready, -, grown⟩ | ⟨ready, -, -, same⟩⟩ :=
      ok.send_cases gRunning sending
    next =>
      refine ⟨same ▸ carries.outstanding, ?_⟩
      rw [still]
      rintro other ⟨⟩
      exact good
    next =>
      refine ⟨?_, by simp [ready, Sending.packet?]⟩
      rw [grown, List.forall_mem_append, List.forall_mem_singleton]
      exact ⟨carries.outstanding, good⟩
    next => exact ⟨same ▸ carries.outstanding, by simp [ready, Sending.packet?]⟩

theorem work (carries : Carries capacity holds handoff) (ok : Ok capacity handoff) (maxItems : Nat)
    (observe : T → V) :
    let now := handoff.work capacity maxItems observe
    Carries capacity holds now ∧
      ∀ reading ∈ now.parsed,
        reading ∈ handoff.parsed ∨ (holds reading.1 ∧ reading.2 = observe reading.1) := by
  obtain ⟨-, sending, -, ⟨packet, rest, -, before, after, parsed⟩ | ⟨-, same, parsed⟩⟩ :=
    ok.work_cases maxItems observe
  next =>
    have all := carries.outstanding
    rw [before, List.forall_mem_cons] at all
    refine ⟨⟨after ▸ all.2, sending ▸ carries.sending⟩, ?_⟩
    rw [parsed, List.forall_mem_append, List.forall_mem_singleton]
    exact ⟨fun reading => .inl, .inr ⟨all.1, rfl⟩⟩
  next =>
    refine ⟨⟨same ▸ carries.outstanding, sending ▸ carries.sending⟩, ?_⟩
    rw [parsed]
    exact fun reading => .inl

theorem imp {other : T → Prop} (carries : Carries capacity holds handoff)
    (weaker : ∀ packet, holds packet → other packet) : Carries capacity other handoff where
  outstanding := fun packet member => weaker packet (carries.outstanding packet member)
  sending := fun packet member => weaker packet (carries.sending packet member)

end Carries

end Handoff

end HftFixEngine.Common
