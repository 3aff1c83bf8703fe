import HftFixEngine.Common.Handoff
import HftFixEngine.Shared.Run
import HftFixEngine.Worker.FixWorker

set_option autoImplicit false

namespace HftFixEngine.Common

variable {T : Type} {capacity : Capacity} {exec : Execution T}

def Consumer.Popping : Consumer T → Prop
  | .pop => True
  | .popRefresh _ => True
  | .popCopy _ => True
  | .popStore _ _ => True
  | _ => False

namespace Execution

theorem canPush_iff (ok : ExecutionOk capacity exec) :
    exec.canPush capacity = true ↔
      exec.accepted.length + 1 < exec.returned.length + capacity.size := by
  have order := ok.ring.moved_le
  have room := ok.ring.room
  rw [SPSCQueue.canPush, decide_eq_true_eq, ok.ring.writePos, ok.ring.readPos, capacity.wrap_index,
    Ne, Ring.next_eq_iff (by omega) (by omega)]
  omega

theorem produce_with_room (ok : ExecutionOk capacity exec) {item : T}
    (pushing : exec.producer.Pushing item)
    (room : exec.accepted.length + 1 < exec.returned.length + capacity.size) :
    let now := exec.produce capacity
    (now.producer = .idle ∧ now.accepted = exec.accepted ++ [item]) ∨
      (now.producer.Pushing item ∧ now.producer ≠ .idle ∧ now.accepted = exec.accepted) := by
  obtain ⟨seen, stale, near, cached, phase⟩ := ok.producer
  cases here : exec.producer with
  | push item' =>
    have same : item' = item := by simpa [here, Producer.Pushing] using pushing
    simp only [produce, here]
    split <;> simp [Producer.Pushing, same]
  | pushRefresh item' currentWrite =>
    have same : item' = item := by simpa [here, Producer.Pushing] using pushing
    rw [here] at phase
    have order := ok.ring.moved_le
    have apart : ¬ capacity.wrap (currentWrite + 1) = exec.readPos := by
      rw [show currentWrite = _ from phase, ok.ring.readPos, capacity.wrap_index,
        Ring.next_eq_iff (by omega) (by omega)]
      omega
    simp only [produce, here]
    rw [if_neg apart]
    simp [Producer.Pushing, same]
  | pushCopy item' currentWrite =>
    have same : item' = item := by simpa [here, Producer.Pushing] using pushing
    simp [produce, here, Producer.Pushing, same, write]
  | pushStore item' currentWrite =>
    have same : item' = item := by simpa [here, Producer.Pushing] using pushing
    simp [produce, here, same, publish]
  | _ => simp [here, Producer.Pushing] at pushing

theorem consume_popping (capacity : Capacity) (movedFrom : T → T) (popping : exec.consumer.Popping) :
    let now := exec.consume capacity movedFrom
    (∃ currentRead item, exec.consumer = .popStore currentRead item ∧ now.consumer = .idle ∧
        now.returned = exec.returned ++ [item]) ∨
      ((∀ currentRead item, exec.consumer ≠ .popStore currentRead item) ∧
        (now.consumer = .idle ∨ now.consumer.Popping ∧ now.consumer ≠ .idle) ∧
        now.returned = exec.returned) := by
  cases here : exec.consumer with
  | pop =>
    simp only [consume, here]
    split <;> simp [Consumer.Popping]
  | popRefresh currentRead =>
    simp only [consume, here]
    split <;> simp [Consumer.Popping]
  | popCopy currentRead => simp [consume, here, Consumer.Popping, read]
  | popStore currentRead item => simp [consume, here, release]
  | _ => simp [here, Consumer.Popping] at popping

theorem empty_iff (ok : ExecutionOk capacity exec) :
    exec.empty = true ↔ exec.accepted.length ≤ exec.returned.length := by
  have order := ok.ring.moved_le
  have room := ok.ring.room
  rw [SPSCQueue.empty, decide_eq_true_eq, ok.ring.writePos, ok.ring.readPos,
    Ring.index_eq_iff (by omega) (by omega)]
  omega

end Execution

def Consumer.popRank : Consumer T → Nat
  | .pop => 6
  | .popRefresh _ => 5
  | .popCopy _ => 4
  | .popStore _ _ => 3
  | _ => 0

namespace Execution

-- Only a pop that finds nothing ends without an item.
theorem consume_pop_closer (ok : ExecutionOk capacity exec) (popping : exec.consumer.Popping)
    (other : ∀ currentRead item, exec.consumer ≠ .popStore currentRead item) :
    let now := exec.consume capacity id
    (now.consumer = .idle ∧ exec.accepted.length ≤ exec.returned.length) ∨
      (now.consumer ≠ .idle ∧ now.consumer.popRank < exec.consumer.popRank) := by
  cases here : exec.consumer with
  | pop =>
    simp only [consume, here]
    split <;> simp [Consumer.popRank]
  | popRefresh currentRead =>
    obtain ⟨seen, stale, order, cached, phase⟩ := ok.consumer
    rw [here] at phase
    have room := ok.ring.room
    have moved := ok.ring.moved_le
    simp only [consume, here]
    split
    next empty =>
      rw [show currentRead = _ from phase, ok.ring.writePos,
        Ring.index_eq_iff (by omega) (by omega)] at empty
      exact .inl ⟨rfl, Nat.le_of_eq empty.symm⟩
    next => simp [Consumer.popRank]
  | popCopy currentRead => simp [consume, here, Consumer.popRank, read]
  | popStore currentRead item => exact absurd here (other currentRead item)
  | _ => simp [here, Consumer.Popping] at popping

theorem popRank_pos (popping : exec.consumer.Popping) : 0 < exec.consumer.popRank := by
  cases here : exec.consumer with
  | pop => exact Nat.succ_pos _
  | popRefresh currentRead => exact Nat.succ_pos _
  | popCopy currentRead => exact Nat.succ_pos _
  | popStore currentRead item => exact Nat.succ_pos _
  | _ => simp [here, Consumer.Popping] at popping

end Execution

end HftFixEngine.Common

namespace HftFixEngine.Worker

open Common Protocol

namespace Writer

def inHand : Writer → List LogMessage
  | .write message => [message]
  | _ => []

end Writer

namespace Working

def pending : Working → List FixMessagePacket
  | .canPush current _ => [current]
  | _ => []

end Working

namespace FixWorker

variable {priceText : Int → Bytes} {worker : FixWorker}

def offered (priceText : Int → Bytes) (entries : List (LogEntry × Option Nat)) : List LogMessage :=
  entries.filterMap fun entry => if entry.2.isNone then some (entry.1.message priceText) else none

theorem offered_pushed (entries : List (LogEntry × Option Nat)) (entry : LogEntry) :
    offered priceText (entries ++ [(entry, none)]) =
      offered priceText entries ++ [entry.message priceText] := by
  simp [offered]

theorem offered_skipped (entries : List (LogEntry × Option Nat)) (entry : LogEntry) (backlog : Nat) :
    offered priceText (entries ++ [(entry, some backlog)]) = offered priceText entries := by
  simp [offered]

-- What the worker's place says about the log queue: a push is promised its room.
def Producing (exec : Execution LogMessage) (offered : List LogMessage) : Working → Prop
  | .push _ => ∃ message, exec.producer.Pushing message ∧
      offered = exec.accepted ++ [message] ∧
      exec.accepted.length + 1 < exec.returned.length + logCapacity.size
  | _ => exec.producer = .idle ∧ offered = exec.accepted

def Writing (exec : Execution LogMessage) : Writer → Prop
  | .pop => exec.consumer.Popping
  | _ => exec.consumer = .idle

theorem push_working_of_idle {batch : List FixMessagePacket}
    (idle : (worker.logQueue.produce logCapacity).producer = .idle) :
    (worker.push batch).working = .packetEnd batch := by
  simp [push, idle]

theorem push_working_of_busy {batch : List FixMessagePacket}
    (busy : (worker.logQueue.produce logCapacity).producer ≠ .idle) :
    (worker.push batch).working = .push batch := by
  unfold push
  dsimp only
  split
  next idle => exact absurd idle busy
  next => rfl

structure LogOk (priceText : Int → Bytes) (worker : FixWorker) : Prop where
  queue : ExecutionOk logCapacity worker.logQueue
  producing : Producing worker.logQueue (offered priceText worker.entries) worker.working
  writing : Writing worker.logQueue worker.writer
  file : worker.file ++ worker.writer.inHand.map LogMessage.line =
    worker.logQueue.returned.map LogMessage.line
  running : worker.loggingRunning = false → worker.working = .finished
  lookedDown : worker.writer = .empty → worker.loggingRunning = false
  finished : worker.writer = .finished →
    worker.loggingRunning = false ∧ worker.logQueue.returned = worker.logQueue.accepted
  skipped : ∀ entry backlog,
    (entry, some backlog) ∈ worker.entries → backlog = logCapacity.size - 1
  packets : worker.entries.map (fun entry => entry.1.packet) ++ worker.working.pending =
    worker.handled

namespace LogOk

theorem start (expectedMessages : Nat) (cells : Nat → LogMessage) :
    LogOk priceText (FixWorker.start expectedMessages cells) where
  queue := .start cells
  producing := ⟨rfl, rfl⟩
  writing := rfl
  file := rfl
  running := nofun
  lookedDown := nofun
  finished := nofun
  skipped := nofun
  packets := rfl

theorem alive (ok : LogOk priceText worker) (busy : worker.working ≠ .finished) :
    worker.loggingRunning = true := by
  cases running : worker.loggingRunning with
  | true => rfl
  | false => exact absurd (ok.running running) busy

theorem goOn (ok : LogOk priceText worker) (busy : worker.working ≠ .finished)
    (outside : ∀ batch, worker.working ≠ .push batch) {now : FixWorker}
    (logQueue : now.logQueue = worker.logQueue) (writer : now.writer = worker.writer)
    (file : now.file = worker.file) (loggingRunning : now.loggingRunning = worker.loggingRunning)
    (skipped : ∀ entry backlog,
      (entry, some backlog) ∈ now.entries → backlog = logCapacity.size - 1)
    (entries : offered priceText now.entries = offered priceText worker.entries)
    (leads : ∀ batch, now.working ≠ .push batch)
    (packets : now.entries.map (fun entry => entry.1.packet) ++ now.working.pending = now.handled) :
    LogOk priceText now := by
  have alive := ok.alive busy
  have idle : worker.logQueue.producer = .idle ∧
      offered priceText worker.entries = worker.logQueue.accepted := by
    have producing := ok.producing
    cases here : worker.working with
    | push batch => exact absurd here (outside batch)
    | _ =>
      rw [here] at producing
      exact producing
  constructor
  case queue => exact logQueue ▸ ok.queue
  case producing =>
    rw [logQueue, entries]
    cases here : now.working with
    | push batch => exact absurd here (leads batch)
    | _ => exact idle
  case writing =>
    rw [logQueue, writer]
    exact ok.writing
  case file =>
    rw [logQueue, writer, file]
    exact ok.file
  case running =>
    intro down
    rw [loggingRunning, alive] at down
    nomatch down
  case lookedDown =>
    rw [writer, loggingRunning]
    exact ok.lookedDown
  case finished =>
    rw [writer, loggingRunning, logQueue]
    exact ok.finished
  case skipped => exact skipped
  case packets => exact packets

theorem offer (ok : LogOk priceText worker) {entry : LogEntry} {batch : List FixMessagePacket}
    (here : worker.working = .canPush entry.packet batch) :
    LogOk priceText (worker.offer priceText entry batch) := by
  have busy : worker.working ≠ .finished := by simp [here]
  have alive := ok.alive busy
  have producing := ok.producing
  have packets := ok.packets
  rw [here] at producing packets
  obtain ⟨idle, whole⟩ := producing
  unfold FixWorker.offer
  split
  next may =>
    have room := (Execution.canPush_iff ok.queue).mp may
    have entered : worker.logQueue.enterPush (.push (entry.message priceText)) =
        { worker.logQueue with producer := .push (entry.message priceText) } := by
      simp [Execution.enterPush, idle]
    constructor
    case queue => exact ok.queue.enterPush rfl fun _ _ => trivial
    case producing =>
      rw [entered]
      refine ⟨entry.message priceText, rfl, ?_, room⟩
      rw [offered_pushed, whole]
    case writing =>
      rw [entered]
      exact ok.writing
    case file =>
      rw [entered]
      exact ok.file
    case running =>
      intro down
      exact absurd (alive.symm.trans down) (by simp)
    case lookedDown => exact ok.lookedDown
    case finished =>
      intro finished
      exact absurd (alive.symm.trans (ok.finished finished).1) (by simp)
    case skipped =>
      intro other backlog member
      rcases List.mem_append.mp member with earlier | last
      next => exact ok.skipped other backlog earlier
      next => simp at last
    case packets => simpa [Working.pending] using packets
  next full =>
    refine ok.goOn busy (by simp [here]) rfl rfl rfl rfl ?_ ?_ (by simp) ?_
    next =>
      intro other backlog member
      rcases List.mem_append.mp member with earlier | last
      next => exact ok.skipped other backlog earlier
      next =>
        have size : backlog = worker.logQueue.size logCapacity := by
          simpa using (Prod.mk.inj (List.mem_singleton.mp last)).2
        have room := ok.queue.ring.room
        have order := ok.queue.ring.moved_le
        rw [Execution.canPush_iff ok.queue] at full
        rw [size, ok.queue.size_eq]
        omega
    next => exact offered_skipped worker.entries entry _
    next => simpa [Working.pending] using packets

theorem push (ok : LogOk priceText worker) {batch : List FixMessagePacket}
    (here : worker.working = .push batch) : LogOk priceText (worker.push batch) := by
  have busy : worker.working ≠ .finished := by rw [here]; exact nofun
  have alive := ok.alive busy
  have producing := ok.producing
  have packets := ok.packets
  rw [here] at producing packets
  obtain ⟨message, pushing, whole, room⟩ := producing
  have stays : (worker.logQueue.produce logCapacity).consumer = worker.logQueue.consumer :=
    Execution.produce_consumer logCapacity worker.logQueue
  have returned : (worker.logQueue.produce logCapacity).returned = worker.logQueue.returned :=
    Execution.produce_returned logCapacity
  constructor
  case queue => exact ok.queue.produce
  case producing =>
    rcases Execution.produce_with_room ok.queue pushing room with
      ⟨idle, accepted⟩ | ⟨still, busy, accepted⟩
    next =>
      rw [push_working_of_idle idle]
      exact ⟨idle, whole.trans accepted.symm⟩
    next =>
      rw [push_working_of_busy busy]
      refine ⟨message, still, ?_, ?_⟩
      next =>
        rw [show (worker.push batch).logQueue.accepted = _ from accepted]
        exact whole
      next =>
        rw [show (worker.push batch).logQueue.accepted = _ from accepted,
          show (worker.push batch).logQueue.returned = _ from returned]
        exact room
  case writing =>
    have writing := ok.writing
    unfold Writing at writing ⊢
    rw [show (worker.push batch).logQueue.consumer = worker.logQueue.consumer from stays]
    exact writing
  case file =>
    rw [show (worker.push batch).logQueue.returned = worker.logQueue.returned from returned]
    exact ok.file
  case running =>
    intro down
    exact absurd (alive.symm.trans down) nofun
  case lookedDown => exact ok.lookedDown
  case finished =>
    intro finished
    exact absurd (alive.symm.trans (ok.finished finished).1) nofun
  case skipped => exact ok.skipped
  case packets =>
    have none : (worker.push batch).working.pending = [] := by
      unfold FixWorker.push
      dsimp only
      split <;> rfl
    rw [none]
    exact packets

theorem work (ok : LogOk priceText worker) (timestampNs : Nat) (clOrdId symbol : Bytes) :
    LogOk priceText (worker.work priceText timestampNs clOrdId symbol) := by
  have packets := ok.packets
  unfold FixWorker.work
  cases here : worker.working with
  | head => exact ok
  | packet batch =>
    rw [here] at packets
    cases batch with
    | nil =>
      dsimp only
      refine ok.goOn (by rw [here]; exact nofun) (by rw [here]; exact nofun) rfl rfl rfl rfl
        ok.skipped rfl ?_ ?_
      next => split <;> exact nofun
      next => split <;> exact packets
    | cons packet batch =>
      refine ok.goOn (by rw [here]; exact nofun) (by rw [here]; exact nofun) rfl rfl rfl rfl
        ok.skipped rfl nofun ?_
      simpa [handle, Working.pending] using packets
  | canPush packet batch => exact ok.offer here
  | push batch => exact ok.push here
  | packetEnd batch =>
    rw [here] at packets
    dsimp only
    refine ok.goOn (by rw [here]; exact nofun) (by rw [here]; exact nofun) rfl rfl rfl rfl
      ok.skipped rfl ?_ ?_
    next => split <;> exact nofun
    next => split <;> exact packets
  | finished => exact ok

theorem takeBatch (ok : LogOk priceText worker) (packets : List FixMessagePacket) :
    LogOk priceText (worker.takeBatch packets) := by
  have whole := ok.packets
  unfold FixWorker.takeBatch
  split
  next here =>
    rw [here] at whole
    refine ok.goOn (by rw [here]; exact nofun) (by rw [here]; exact nofun) rfl rfl rfl rfl
      ok.skipped rfl ?_ ?_
    next =>
      dsimp only
      split <;> exact nofun
    next =>
      dsimp only
      split <;> exact whole
  next => exact ok

theorem leave (ok : LogOk priceText worker) : LogOk priceText worker.leave := by
  have whole := ok.packets
  unfold FixWorker.leave
  split
  next here =>
    rw [here] at whole
    exact ok.goOn (by rw [here]; exact nofun) (by rw [here]; exact nofun) rfl rfl rfl rfl
      ok.skipped rfl nofun whole
  next => exact ok

theorem destroy (ok : LogOk priceText worker) : LogOk priceText worker.destroy := by
  unfold FixWorker.destroy
  split
  next here =>
    exact { ok with
      running := fun _ => here
      lookedDown := fun _ => rfl
      finished := fun finished => ⟨rfl, (ok.finished finished).2⟩ }
  next => exact ok

theorem turnWriter (ok : LogOk priceText worker) {now : FixWorker}
    (queue : ExecutionOk logCapacity now.logQueue) (working : now.working = worker.working)
    (producer : now.logQueue.producer = worker.logQueue.producer)
    (accepted : now.logQueue.accepted = worker.logQueue.accepted)
    (returned : worker.logQueue.returned.length ≤ now.logQueue.returned.length)
    (entries : now.entries = worker.entries) (handled : now.handled = worker.handled)
    (loggingRunning : now.loggingRunning = worker.loggingRunning)
    (writing : Writing now.logQueue now.writer)
    (file : now.file ++ now.writer.inHand.map LogMessage.line =
      now.logQueue.returned.map LogMessage.line)
    (lookedDown : now.writer = .empty → worker.loggingRunning = false)
    (finished : now.writer = .finished →
      worker.loggingRunning = false ∧ now.logQueue.returned = worker.logQueue.accepted) :
    LogOk priceText now where
  queue := queue
  producing := by
    have producing := ok.producing
    rw [working, entries]
    cases here : worker.working with
    | push batch =>
      rw [here] at producing
      obtain ⟨message, pushing, whole, room⟩ := producing
      refine ⟨message, producer ▸ pushing, accepted ▸ whole, ?_⟩
      rw [accepted]
      omega
    | _ =>
      rw [here] at producing
      exact ⟨producer.trans producing.1, producing.2.trans accepted.symm⟩
  writing := writing
  file := file
  running := by
    rw [loggingRunning, working]
    exact ok.running
  lookedDown := by
    rw [loggingRunning]
    exact lookedDown
  finished := by
    rw [loggingRunning, accepted]
    exact finished
  skipped := by
    rw [entries]
    exact ok.skipped
  packets := by
    rw [entries, working, handled]
    exact ok.packets

theorem startPop (ok : LogOk priceText worker) (idle : worker.logQueue.consumer = .idle)
    (emptyHanded : worker.writer.inHand = []) : LogOk priceText worker.startPop := by
  have file := ok.file
  rw [emptyHanded] at file
  have entered : worker.logQueue.enterPop .pop = { worker.logQueue with consumer := .pop } := by
    simp [Execution.enterPop, idle]
  refine ok.turnWriter (ok.queue.enterPop rfl fun _ _ => trivial) rfl ?_ ?_ ?_ rfl rfl rfl ?_ ?_
    (by simp [FixWorker.startPop]) (by simp [FixWorker.startPop])
  next => exact Execution.enterPop_producer worker.logQueue .pop
  next => exact (Execution.enterPop_accepted .pop).1
  next => rw [show worker.startPop.logQueue = _ from entered]
  next =>
    rw [show worker.startPop.logQueue = _ from entered]
    trivial
  next =>
    rw [show worker.startPop.logQueue = _ from entered]
    exact file

theorem pop (ok : LogOk priceText worker) (here : worker.writer = .pop) :
    LogOk priceText worker.write := by
  have writing := ok.writing
  have file := ok.file
  rw [here] at writing file
  have queue : ExecutionOk logCapacity (worker.logQueue.consume logCapacity id) :=
    ok.queue.consume id
  have producer := Execution.consume_producer logCapacity id worker.logQueue
  have accepted : (worker.logQueue.consume logCapacity id).accepted = worker.logQueue.accepted :=
    Execution.consume_accepted logCapacity id
  simp only [FixWorker.write, here]
  rcases Execution.consume_popping logCapacity id writing with
    ⟨currentRead, message, last, idle, returned⟩ | ⟨other, place, returned⟩
  next =>
    rw [last]
    refine ok.turnWriter queue rfl producer accepted ?_ rfl rfl rfl ?_ ?_ nofun nofun
    next => simp [returned]
    next => exact idle
    next => simpa [Writer.inHand, returned] using file
  next =>
    split
    next currentRead message last => exact absurd last (other currentRead message)
    next =>
      split
      next idle =>
        refine ok.turnWriter queue rfl producer accepted ?_ rfl rfl rfl ?_ ?_ nofun nofun
        next => simp [returned]
        next => exact idle
        next => simpa [Writer.inHand, returned] using file
      next busy =>
        refine ok.turnWriter queue rfl producer accepted ?_ rfl rfl rfl ?_ ?_ nofun nofun
        next => simp [returned]
        next => exact (place.resolve_left busy).1
        next => simpa [Writer.inHand, returned] using file

theorem write (ok : LogOk priceText worker) : LogOk priceText worker.write := by
  have writing := ok.writing
  have file := ok.file
  cases here : worker.writer with
  | head =>
    rw [here] at writing
    simp only [FixWorker.write, here]
    split
    next => exact ok.startPop writing (by rw [here]; rfl)
    next down =>
      rw [here] at file
      exact ok.turnWriter ok.queue rfl rfl rfl (Nat.le_refl _) rfl rfl rfl writing file
        (fun _ => by simpa using down) nofun
  | empty =>
    rw [here] at writing file
    simp only [FixWorker.write, here]
    split
    next empty =>
      exact ok.turnWriter ok.queue rfl rfl rfl (Nat.le_refl _) rfl rfl rfl writing file nofun
        fun _ => ⟨ok.lookedDown here, ok.queue.returned_eq_of_empty empty⟩
    next => exact ok.startPop writing (by rw [here]; rfl)
  | pop => exact ok.pop here
  | write message =>
    rw [here] at writing file
    simp only [FixWorker.write, here]
    refine ok.turnWriter ok.queue rfl rfl rfl (Nat.le_refl _) rfl rfl rfl writing ?_ nofun nofun
    simpa [Writer.inHand] using file
  | finished =>
    simp only [FixWorker.write, here]
    exact ok

theorem step (ok : LogOk priceText worker) (action : Action) :
    LogOk priceText (worker.step priceText action) := by
  cases action with
  | takeBatch packets => exact ok.takeBatch packets
  | leave => exact ok.leave
  | work timestampNs clOrdId symbol => exact ok.work timestampNs clOrdId symbol
  | write => exact ok.write
  | destroy => exact ok.destroy

theorem run (priceText : Int → Bytes) (expectedMessages : Nat) (cells : Nat → LogMessage)
    (actions : List Action) :
    LogOk priceText (FixWorker.run priceText expectedMessages cells actions) := by
  unfold FixWorker.run
  exact List.foldlRecOn actions _ (start expectedMessages cells) fun _ ok action _ => ok.step action

theorem file_of_finished (ok : LogOk priceText worker) (finished : worker.writer = .finished) :
    worker.file = (offered priceText worker.entries).map LogMessage.line := by
  obtain ⟨down, drained⟩ := ok.finished finished
  have producing := ok.producing
  have file := ok.file
  rw [ok.running down] at producing
  rw [finished, drained, ← producing.2] at file
  simpa [Writer.inHand] using file

end LogOk

theorem log_complete (priceText : Int → Bytes) (expectedMessages : Nat) (cells : Nat → LogMessage)
    (actions : List Action) :
    let worker := run priceText expectedMessages cells actions
    worker.entries.map (fun entry => entry.1.packet) ++ worker.working.pending = worker.handled ∧
      (∀ entry backlog, (entry, some backlog) ∈ worker.entries → backlog = 16383) ∧
      worker.file <+: (offered priceText worker.entries).map LogMessage.line ∧
      (worker.writer = .finished →
        worker.file = (offered priceText worker.entries).map LogMessage.line) := by
  intro worker
  have ok : LogOk priceText worker := .run priceText expectedMessages cells actions
  have pushed : worker.logQueue.accepted <+: offered priceText worker.entries := by
    have producing := ok.producing
    cases here : worker.working with
    | push batch =>
      rw [here] at producing
      obtain ⟨message, _, whole, _⟩ := producing
      exact ⟨[message], whole.symm⟩
    | _ =>
      rw [here] at producing
      exact producing.2 ▸ List.prefix_rfl
  have given : worker.logQueue.returned <+: worker.logQueue.accepted :=
    (List.prefix_append _ _).trans ok.queue.ring.fifo
  have shown : worker.file <+: worker.logQueue.returned.map LogMessage.line :=
    ⟨_, ok.file⟩
  refine ⟨ok.packets, ok.skipped, shown.trans ((given.trans pushed).map _), ?_⟩
  exact ok.file_of_finished

section Destructor

def writeRank (worker : FixWorker) : Nat :=
  let waiting := worker.logQueue.accepted.length - worker.logQueue.returned.length
  match worker.writer with
  | .head => 20 * waiting + 8
  | .empty => 20 * waiting + 7
  | .pop => 20 * waiting + worker.logQueue.consumer.popRank + if waiting = 0 then 8 else 0
  | .write _ => 20 * waiting + 9
  | .finished => 0

structure Closing (priceText : Int → Bytes) (entries : List (LogEntry × Option Nat))
    (worker : FixWorker) : Prop where
  ok : LogOk priceText worker
  down : worker.loggingRunning = false
  entries : worker.entries = entries

variable {entries : List (LogEntry × Option Nat)}

theorem write_entries (worker : FixWorker) : worker.write.entries = worker.entries ∧
    worker.write.loggingRunning = worker.loggingRunning := by
  unfold write
  split
  next => split <;> exact ⟨rfl, rfl⟩
  next => split <;> exact ⟨rfl, rfl⟩
  next => exact ⟨rfl, rfl⟩
  next => exact ⟨rfl, rfl⟩
  next => exact ⟨rfl, rfl⟩

theorem startPop_rank (idle : worker.logQueue.consumer = .idle) :
    writeRank worker.startPop =
      20 * (worker.logQueue.accepted.length - worker.logQueue.returned.length) + 6 +
        if worker.logQueue.accepted.length - worker.logQueue.returned.length = 0 then 8 else 0 := by
  simp [writeRank, startPop, Execution.enterPop, idle, Consumer.popRank]

theorem Closing.closer (closing : Closing priceText entries worker)
    (busy : worker.writer ≠ .finished) :
    Closing priceText entries worker.write ∧ writeRank worker.write < writeRank worker := by
  have down := closing.down
  have writing := closing.ok.writing
  obtain ⟨same, stillDown⟩ := write_entries worker
  refine ⟨⟨closing.ok.write, stillDown.trans down, same.trans closing.entries⟩, ?_⟩
  cases here : worker.writer with
  | head =>
    simp only [write, here, down, Bool.false_eq_true, if_false, writeRank]
    omega
  | empty =>
    rw [here] at writing
    have idle : worker.logQueue.consumer = .idle := writing
    simp only [write, here]
    split
    next =>
      simp only [writeRank, here]
      omega
    next some =>
      rw [Execution.empty_iff closing.ok.queue] at some
      rw [startPop_rank idle]
      simp only [writeRank, here]
      split <;> omega
  | pop =>
    rw [here] at writing
    have accepted : (worker.logQueue.consume logCapacity id).accepted = worker.logQueue.accepted :=
      Execution.consume_accepted logCapacity id
    have moved := (closing.ok.queue.consume id).ring.moved_le
    rw [accepted] at moved
    simp only [write, here]
    rcases Execution.consume_popping logCapacity id writing with
      ⟨currentRead, message, last, -, returned⟩ | ⟨other, -, returned⟩
    next =>
      rw [returned, List.length_append, List.length_singleton] at moved
      simp only [writeRank, here, last, accepted, returned, Consumer.popRank, List.length_append,
        List.length_singleton]
      omega
    next =>
      have positive := Execution.popRank_pos writing
      split
      next currentRead message last => exact absurd last (other currentRead message)
      next =>
        rcases Execution.consume_pop_closer closing.ok.queue writing other with
          ⟨idle, nothing⟩ | ⟨busy, lower⟩
        next =>
          simp only [writeRank, here, idle, accepted, returned]
          rw [if_pos (by omega)]
          omega
        next =>
          split
          next idle => exact absurd idle busy
          next =>
            simp only [writeRank, here, accepted, returned]
            omega
  | write message =>
    simp only [write, here, writeRank]
    omega
  | finished => exact absurd here busy

theorem destructor_returns (priceText : Int → Bytes) (expectedMessages : Nat)
    (cells : Nat → LogMessage) (actions : List Action)
    (down : (run priceText expectedMessages cells actions).loggingRunning = false) :
    ∃ steps,
      let closed := write^[steps] (run priceText expectedMessages cells actions)
      closed.writer = .finished ∧
        closed.file =
          (offered priceText (run priceText expectedMessages cells actions).entries).map
            LogMessage.line := by
  have closing : Closing priceText (run priceText expectedMessages cells actions).entries
      (run priceText expectedMessages cells actions) :=
    ⟨.run priceText expectedMessages cells actions, down, rfl⟩
  obtain ⟨steps, closed, finished⟩ := Run.reaches (fun _ => Closing.closer) closing
  refine ⟨steps, finished, ?_⟩
  rw [closed.ok.file_of_finished finished, closed.entries]

-- One packet without a payload, and the destructor before the writing thread has made a step.
theorem destructor_returns_one :
    let actions : List Action :=
      .takeBatch [⟨none, none, 250⟩] :: List.replicate 8 (.work 1000 [] []) ++ [.destroy]
    let worker := run (fun _ => ascii "0.0000") 1 (fun _ => ⟨0, []⟩) actions
    ∃ steps,
      let closed := write^[steps] worker
      closed.writer = .finished ∧
        closed.file = (offered (fun _ => ascii "0.0000") worker.entries).map LogMessage.line :=
  destructor_returns _ _ _ _ (by decide +kernel)

end Destructor

end FixWorker

end HftFixEngine.Worker
