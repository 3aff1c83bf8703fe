import HftFixEngine.Common.HandoffProgress
import HftFixEngine.Engine.Pipeline
import HftFixEngine.Networking.FrameHeaders
import HftFixEngine.Protocol.Decimal
import HftFixEngine.Protocol.ProtocolParser

set_option autoImplicit false

namespace HftFixEngine.Networking

open Common Engine Protocol

structure DirectPacket where
  payload : Bytes
  payloadLen : Nat
  deriving DecidableEq, Repr

-- `next` and `push` have the messages that are still to come.
inductive DirectProducer where
  | next (messages : List Bytes)
  | push (messages : List Bytes)
  | storeProducerDone
  | returned
  deriving DecidableEq, Repr

namespace DirectProducer

def messages : DirectProducer → List Bytes
  | .next messages => messages
  | .push messages => messages
  | _ => []

def pushing : DirectProducer → Bool
  | .push _ => true
  | _ => false

end DirectProducer

structure DirectQueue where
  gProducerDone : Bool := false
  producer : DirectProducer
  handoff : Handoff DirectPacket ParsedOrder

inductive DirectThread where
  | producer
  | worker
  deriving DecidableEq, Repr

namespace DirectQueue

-- `payload_len` has 16 bits.
def packet (message : Bytes) : DirectPacket where
  payload := message
  payloadLen := min message.length maxPayloadLen % 65536

def order (type : ProtocolType) (packet : DirectPacket) : ParsedOrder :=
  ProtocolParser.parseInPlace type (some (packet.payload.take packet.payloadLen))

-- `g_running` stays true.
def stepProducer (state : DirectQueue) : DirectQueue :=
  match state.producer with
  | .next [] => { state with producer := .storeProducerDone }
  | .next (message :: messages) =>
    { state with
      handoff := state.handoff.startSend (packet message)
      producer := .push messages }
  | .push messages =>
    let handoff := state.handoff.send queueCapacity true
    { state with
      handoff
      producer :=
        match handoff.sending with
        | .ready => .next messages
        | _ => .push messages }
  | .storeProducerDone => { state with gProducerDone := true, producer := .returned }
  | .returned => state

def step (type : ProtocolType) (state : DirectQueue) : DirectThread → DirectQueue
  | .producer => state.stepProducer
  | .worker =>
    { state with handoff := state.handoff.work queueCapacity packetsPerBatch (order type) }

def run (type : ProtocolType) (state : DirectQueue) (schedule : List DirectThread) : DirectQueue :=
  schedule.foldl (step type) state

theorem run_append (type : ProtocolType) (state : DirectQueue) (schedule later : List DirectThread) :
    state.run type (schedule ++ later) = (state.run type schedule).run type later :=
  List.foldl_append

def start (messages : List Bytes) (cells : Nat → DirectPacket) : DirectQueue where
  producer := .next messages
  handoff := { queue := { buffer := cells } }

def outstanding (state : DirectQueue) : List DirectPacket := state.handoff.outstanding queueCapacity

def orders (state : DirectQueue) : List ParsedOrder := state.handoff.parsed.map Prod.snd

def expected (type : ProtocolType) (messages : List Bytes) : List ParsedOrder :=
  messages.map fun message => ProtocolParser.parseInPlace type (some (message.take maxPayloadLen))

theorem order_packet (type : ProtocolType) (message : Bytes) :
    order type (packet message) =
      ProtocolParser.parseInPlace type (some (message.take maxPayloadLen)) := by
  have short : min message.length maxPayloadLen % 65536 = min message.length maxPayloadLen :=
    Nat.mod_eq_of_lt (Nat.lt_of_le_of_lt (Nat.min_le_right _ _) (by decide))
  have cut : message.take (min message.length maxPayloadLen) = message.take maxPayloadLen := by
    rw [List.take_eq_take_iff]
    omega
  simp only [order, packet, short, cut]

structure Ok (type : ProtocolType) (messages : List Bytes) (state : DirectQueue) : Prop where
  handoff : Handoff.Ok queueCapacity state.handoff
  paced : state.handoff.queue.consumer.Paced packetsPerBatch
  ready : state.producer.pushing = false → state.handoff.sending = .ready
  pushing : state.producer.pushing = true → state.handoff.sending ≠ .ready
  whole : state.handoff.queue.accepted ++ state.handoff.sending.packet?.toList ++
    state.producer.messages.map packet = messages.map packet
  parsed : ∀ reading ∈ state.handoff.parsed, reading.2 = order type reading.1

namespace Ok

variable {type : ProtocolType} {messages : List Bytes} {state : DirectQueue}

theorem start (cells : Nat → DirectPacket) : Ok type messages (start messages cells) where
  handoff := Handoff.Ok.start cells
  paced := trivial
  ready := fun _ => rfl
  pushing := by simp [DirectQueue.start, DirectProducer.pushing]
  whole := rfl
  parsed := by simp [DirectQueue.start]

theorem idle (ok : Ok type messages state) (free : state.producer.pushing = false) :
    state.handoff.queue.producer = .idle :=
  ok.handoff.idle (ok.ready free)

theorem sending (ok : Ok type messages state) (busy : state.producer.pushing = true) :
    ∃ packet, state.handoff.sending.packet? = some packet := by
  cases under : state.handoff.sending.packet? with
  | none => exact absurd (Sending.ready_of_none under) (ok.pushing busy)
  | some packet => exact ⟨packet, rfl⟩

theorem stepPush (ok : Ok type messages state) {rest : List Bytes}
    (here : state.producer = .push rest) :
    Ok type messages
      { state with
        handoff := state.handoff.send queueCapacity true
        producer :=
          match (state.handoff.send queueCapacity true).sending with
          | .ready => .next rest
          | _ => .push rest } := by
  have whole := ok.whole
  obtain ⟨packet, under⟩ := ok.sending (by rw [here]; rfl)
  rw [under, here] at whole
  have paced : (state.handoff.send queueCapacity true).queue.consumer.Paced packetsPerBatch := by
    rw [Handoff.send_consumer]
    exact ok.paced
  obtain ⟨nowOk, parsed, ⟨still, accepted, -⟩ | ⟨sent, accepted, -⟩ | ⟨-, stopped, -, -⟩⟩ :=
    ok.handoff.send_cases true under
  next =>
    have again : (state.handoff.send queueCapacity true).sending ≠ .ready := by
      intro sent
      simp [sent, Sending.packet?] at still
    split
    next sent => exact absurd sent again
    next =>
      constructor
      case handoff => exact nowOk
      case paced => exact paced
      case ready => simp [DirectProducer.pushing]
      case pushing => exact fun _ => again
      case whole =>
        rw [still, accepted]
        exact whole
      case parsed => exact parsed ▸ ok.parsed
  next =>
    rw [sent]
    constructor
    case handoff => exact nowOk
    case paced => exact paced
    case ready => exact fun _ => sent
    case pushing => simp [DirectProducer.pushing]
    case whole =>
      rw [sent, accepted]
      simpa [Sending.packet?, DirectProducer.messages] using whole
    case parsed => exact parsed ▸ ok.parsed
  next => exact absurd stopped Bool.noConfusion

theorem stepProducer (ok : Ok type messages state) : Ok type messages state.stepProducer := by
  have whole := ok.whole
  unfold DirectQueue.stepProducer
  split
  case h_1 here =>
    rw [here] at whole
    have ready := ok.ready (by rw [here]; rfl)
    exact { ok with ready := fun _ => ready, pushing := by simp [DirectProducer.pushing], whole }
  case h_2 message rest here =>
    have free : state.producer.pushing = false := by rw [here]; rfl
    rw [ok.ready free, here] at whole
    constructor
    case handoff => exact ok.handoff.startSend (ok.idle free) _
    case paced => simpa [Handoff.startSend] using ok.paced
    case ready => simp [DirectProducer.pushing]
    case pushing => simp [Handoff.startSend]
    case whole =>
      rw [← whole, (ok.handoff.startSend_outstanding (ok.idle free) _).1]
      simp [Handoff.startSend, Sending.packet?, DirectProducer.messages]
    case parsed => exact ok.parsed
  case h_3 rest here => exact ok.stepPush here
  case h_4 here =>
    rw [here] at whole
    have ready := ok.ready (by rw [here]; rfl)
    exact { ok with ready := fun _ => ready, pushing := by simp [DirectProducer.pushing], whole }
  case h_5 => exact ok

theorem stepWorker (ok : Ok type messages state) :
    Ok type messages (state.step type .worker) := by
  obtain ⟨nowOk, sending, accepted, observed⟩ :=
    ok.handoff.work_cases packetsPerBatch (order type)
  constructor
  case handoff => exact nowOk
  case paced => exact Handoff.work_paced (by decide) ok.handoff ok.paced (order type)
  case ready =>
    intro free
    exact sending.trans (ok.ready free)
  case pushing =>
    intro busy ready
    exact ok.pushing busy (sending.symm.trans ready)
  case whole =>
    simp only [step]
    rw [sending, accepted]
    exact ok.whole
  case parsed =>
    simp only [step]
    obtain ⟨packet, rest, -, -, -, parsed⟩ | ⟨-, -, parsed⟩ := observed
    next =>
      rw [parsed, List.forall_mem_append, List.forall_mem_singleton]
      exact ⟨ok.parsed, rfl⟩
    next =>
      rw [parsed]
      exact ok.parsed

theorem run (schedule : List DirectThread) (ok : Ok type messages state) :
    Ok type messages (state.run type schedule) := by
  induction schedule generalizing state with
  | nil => exact ok
  | cons thread schedule ih =>
    cases thread with
    | producer => exact ih ok.stepProducer
    | worker => exact ih ok.stepWorker

theorem orders_eq (ok : Ok type messages state) :
    state.orders ++ (state.outstanding ++ state.handoff.sending.packet?.toList ++
      state.producer.messages.map packet).map (order type) = expected type messages := by
  have observed : state.orders = (state.handoff.parsed.map Prod.fst).map (order type) := by
    rw [orders, List.map_map]
    exact List.map_congr_left ok.parsed
  have wanted : expected type messages = (messages.map packet).map (order type) := by
    rw [expected, List.map_map]
    exact List.map_congr_left fun message _ => (order_packet type message).symm
  rw [observed, wanted, ← ok.whole, ← ok.handoff.accepted_eq]
  simp [outstanding]

theorem orders_prefix (ok : Ok type messages state) : state.orders <+: expected type messages :=
  ⟨_, ok.orders_eq⟩

theorem orders_complete (ok : Ok type messages state)
    (all : messages.length ≤ state.orders.length) : state.orders = expected type messages := by
  refine ok.orders_prefix.eq_of_length_le ?_
  rw [expected, List.length_map]
  exact all

theorem missing (ok : Ok type messages state) (empty : state.outstanding = [])
    (missing : state.orders.length < messages.length) :
    state.producer.pushing = true ∨ state.producer.messages ≠ [] := by
  by_contra! none
  have ready := ok.ready (by simpa using none.1)
  have whole := congrArg List.length ok.orders_eq
  simp [empty, ready, none.2, Sending.packet?, expected] at whole
  omega

end Ok

section Progress

variable {type : ProtocolType} {messages : List Bytes} {state : DirectQueue}

theorem run_worker (n : Nat) :
    state.run type (List.replicate n .worker) =
      { state with
        handoff := (Handoff.work queueCapacity packetsPerBatch (order type))^[n] state.handoff } := by
  induction n generalizing state with
  | zero => rfl
  | succ n ih => exact ih

theorem push_reaches (ok : Ok type messages state) (busy : state.producer.pushing = true)
    (empty : state.outstanding = []) :
    ∃ schedule, let now := state.run type schedule
      now.outstanding ≠ [] ∧ now.orders = state.orders := by
  induction rank : state.handoff.sendRank using Nat.strong_induction_on generalizing state with
  | h rank ih =>
    cases here : state.producer with
    | push rest =>
      obtain ⟨packet, under⟩ := ok.sending busy
      have progress := Handoff.send_progress ok.handoff under empty
      obtain ⟨-, parsed, ⟨still, -, same⟩ | ⟨sent, -, grown⟩ | ⟨-, stopped, -, -⟩⟩ :=
        ok.handoff.send_cases true under
      next =>
        obtain sent | ⟨again, closer⟩ := progress
        next => simp [sent, Sending.packet?] at still
        have now : state.stepProducer =
            { state with handoff := state.handoff.send queueCapacity true } := by
          simp only [DirectQueue.stepProducer, here]
          rw [again]
        have nowOk := ok.stepProducer
        rw [now] at nowOk
        obtain ⟨schedule, filled, orders⟩ :=
          ih _ (rank ▸ closer) nowOk busy (same.trans empty) rfl
        refine ⟨.producer :: schedule, ?_⟩
        rw [run, List.foldl_cons, show state.step type .producer = _ from now]
        exact ⟨filled, orders.trans (congrArg (List.map Prod.snd) parsed)⟩
      next =>
        have now : state.stepProducer.handoff = state.handoff.send queueCapacity true := by
          simp only [DirectQueue.stepProducer, here]
        refine ⟨[.producer], ?_⟩
        simp only [run, List.foldl_cons, List.foldl_nil, step, outstanding, orders, now]
        refine ⟨?_, congrArg (List.map Prod.snd) parsed⟩
        simp [grown]
      next => exact absurd stopped Bool.noConfusion
    | _ => simp [here, DirectProducer.pushing] at busy

theorem producer_reaches (ok : Ok type messages state) (empty : state.outstanding = [])
    (missing : state.orders.length < messages.length) :
    ∃ schedule, let now := state.run type schedule
      now.outstanding ≠ [] ∧ now.orders = state.orders := by
  obtain busy | rest := ok.missing empty missing
  next => exact push_reaches ok busy empty
  cases here : state.producer with
  | next ahead =>
    cases ahead with
    | nil => simp [here, DirectProducer.messages] at rest
    | cons message ahead =>
      have idle := ok.idle (by rw [here]; rfl)
      have now : state.stepProducer =
          { state with
            handoff := state.handoff.startSend (packet message)
            producer := .push ahead } := by
        simp only [DirectQueue.stepProducer, here]
      have nowOk := ok.stepProducer
      rw [now] at nowOk
      have same := (ok.handoff.startSend_outstanding idle (packet message)).2
      obtain ⟨schedule, filled, orders⟩ := push_reaches nowOk rfl (same.trans empty)
      refine ⟨.producer :: schedule, ?_⟩
      rw [run, List.foldl_cons, show state.step type .producer = _ from now]
      exact ⟨filled, orders⟩
  | push ahead => exact push_reaches ok (by rw [here]; rfl) empty
  | storeProducerDone => simp [here, DirectProducer.messages] at rest
  | returned => simp [here, DirectProducer.messages] at rest

theorem worker_reaches (ok : Ok type messages state) (some : state.outstanding ≠ []) :
    ∃ schedule, (state.run type schedule).orders.length = state.orders.length + 1 := by
  obtain ⟨n, -, -, -, -, parsed⟩ :=
    Handoff.work_reaches (by decide) ok.handoff ok.paced (order type) some
  refine ⟨List.replicate n .worker, ?_⟩
  rw [run_worker]
  simpa [orders] using parsed

theorem reaches_order (ok : Ok type messages state)
    (missing : state.orders.length < messages.length) :
    ∃ schedule, (state.run type schedule).orders.length = state.orders.length + 1 := by
  by_cases empty : state.outstanding = []
  next =>
    obtain ⟨schedule, filled, same⟩ := producer_reaches ok empty missing
    obtain ⟨later, more⟩ := worker_reaches (ok.run schedule) filled
    refine ⟨schedule ++ later, ?_⟩
    rw [run_append, more, same]
  next => exact worker_reaches ok empty

theorem reaches_all (ok : Ok type messages state) :
    ∃ schedule, (state.run type schedule).orders = expected type messages := by
  induction left : messages.length - state.orders.length generalizing state with
  | zero => exact ⟨[], ok.orders_complete (by omega)⟩
  | succ left ih =>
    obtain ⟨schedule, more⟩ := reaches_order ok (by omega)
    obtain ⟨later, all⟩ := ih (ok.run schedule) (by omega)
    refine ⟨schedule ++ later, ?_⟩
    rw [run_append]
    exact all

end Progress

theorem direct_orders (type : ProtocolType) (messages : List Bytes) (cells : Nat → DirectPacket)
    (schedule : List DirectThread) :
    ((start messages cells).run type schedule).orders <+: expected type messages ∧
      (((start messages cells).run type schedule).producer = .returned →
        ((start messages cells).run type schedule).outstanding = [] →
        ((start messages cells).run type schedule).orders = expected type messages) ∧
      ∃ later,
        ((start messages cells).run type (schedule ++ later)).orders = expected type messages := by
  have ok : Ok type messages ((start messages cells).run type schedule) :=
    (Ok.start cells).run schedule
  refine ⟨ok.orders_prefix, ?_, ?_⟩
  next =>
    intro returned drained
    refine ok.orders_complete (Nat.le_of_not_lt fun missing => ?_)
    have rest := ok.missing drained missing
    simp [returned, DirectProducer.pushing, DirectProducer.messages] at rest
  next =>
    obtain ⟨later, all⟩ := reaches_all ok
    refine ⟨later, ?_⟩
    rw [run_append]
    exact all

def longMessage : Bytes :=
  ascii "58=" ++ List.replicate 503 120 ++ ascii "\x0138=1234"

theorem direct_cut_quantity :
    let cells : Nat → DirectPacket := fun _ => ⟨[], 0⟩
    let schedule := List.replicate 8 DirectThread.producer ++ List.replicate 8 DirectThread.worker
    ((start [longMessage] cells).run .fix schedule).producer = .returned ∧
      ((start [longMessage] cells).run .fix schedule).outstanding = [] ∧
      ((start [longMessage] cells).run .fix schedule).orders.map ParsedOrder.quantity = [12] ∧
      (ProtocolParser.parseInPlace .fix (some longMessage)).quantity = 1234 ∧
      ((start [longMessage] cells).run .fix schedule).orders ≠
        [longMessage].map fun message => ProtocolParser.parseInPlace .fix (some message) := by
  have cut : ((start [longMessage] fun _ => ⟨[], 0⟩).run .fix
      (List.replicate 8 .producer ++ List.replicate 8 .worker)).orders.map ParsedOrder.quantity =
        [12] := by decide +kernel
  have whole : (ProtocolParser.parseInPlace .fix (some longMessage)).quantity = 1234 := by
    decide +kernel
  refine ⟨by decide +kernel, by decide +kernel, cut, whole, ?_⟩
  intro same
  rw [same] at cut
  simp [whole] at cut

end DirectQueue

end HftFixEngine.Networking
