import HftFixEngine.Common.ConsoleLogger
import HftFixEngine.Common.MpscErrand

set_option autoImplicit false

namespace HftFixEngine.Common

namespace ConsoleLogger

variable {P : Type} [DecidableEq P] {logger : ConsoleLogger P} {client : P}

namespace Printer

def errand : Printer → MpscQueue.Errand
  | .headLook => .look
  | .popping => .pop .popWithTimeout
  | .elseLook => .look
  | .draining => .pop .tryPop
  | _ => .none

def inHand : Printer → List ConsoleMessage
  | .popped result => result.toList
  | _ => []

def warned : Printer → Bool
  | .headLook => true
  | .elseLook => true
  | .draining => true
  | .finished => true
  | _ => false

end Printer

def linesOf (messages : List ConsoleMessage) : List Bytes := messages.flatMap ConsoleMessage.lines

@[simp]
theorem linesOf_nil : linesOf [] = [] := rfl

@[simp]
theorem linesOf_append (first second : List ConsoleMessage) :
    linesOf (first ++ second) = linesOf first ++ linesOf second :=
  List.flatMap_append

-- `owed` are messages that the thread may not leave behind.
structure Ok (owed : List ConsoleMessage) (logger : ConsoleLogger P) : Prop where
  queue : logger.queue.Safe
  clients : ∀ client,
    (logger.clients client).calling = false → logger.queue.producers client = .idle
  errand : logger.queue.consumer.errand = logger.printer.errand
  warned : logger.printer.warned = true → logger.queue.running = false
  screen : linesOf logger.queue.removed =
    logger.screen ++ linesOf (logger.printer.inHand ++ logger.queue.consumer.inHand)
  joined : logger.joined = true → logger.printer = .finished
  accepted : owed <+: logger.queue.accepted.map Prod.snd
  drained : logger.queue.consumer = .unlock .tryPop none → owed <+: logger.queue.removed
  finished : logger.printer = .finished → owed <+: logger.queue.removed

variable {owed : List ConsoleMessage}

theorem print_on (on : logger.queue.consumer.ending = false)
    (calling : logger.printer.errand ≠ .none) :
    logger.print = { logger with queue := logger.queue.step .consume } := by
  cases here : logger.printer with
  | head => exact absurd (by rw [here]; rfl) calling
  | popped result => exact absurd (by rw [here]; rfl) calling
  | finished => exact absurd (by rw [here]; rfl) calling
  | _ =>
    cases consumer : logger.queue.consumer with
    | unlock call result => simp [consumer, MpscQueue.Consumer.ending] at on
    | lookUnlock found => simp [consumer, MpscQueue.Consumer.ending] at on
    | _ => simp [print, here, consumer]

theorem setClient_self (phase : Client) : (logger.setClient client phase).clients client = phase :=
  Function.update_self ..

theorem setClient_other {other : P} (phase : Client) (different : other ≠ client) :
    (logger.setClient client phase).clients other = logger.clients other :=
  Function.update_of_ne different ..

namespace Ok

theorem start : Ok [] ({} : ConsoleLogger P) where
  queue := .start true
  clients := fun _ _ => rfl
  errand := rfl
  warned := nofun
  screen := rfl
  joined := nofun
  accepted := List.nil_prefix
  drained := nofun
  finished := nofun

-- Before the thread leaves its loop it leaves nothing behind.
theorem owing (ok : Ok owed logger) (up : logger.queue.running = true) :
    Ok (logger.queue.accepted.map Prod.snd) logger := by
  have unwarned : logger.printer.warned = false := by
    rw [← Bool.not_eq_true]
    intro warned
    simp [ok.warned warned] at up
  refine { ok with accepted := List.prefix_rfl, drained := ?_, finished := ?_ }
  next =>
    intro here
    have errand := ok.errand
    rw [here] at errand
    cases printer : logger.printer with
    | draining => simp [printer, Printer.warned] at unwarned
    | _ => simp [printer, Printer.errand, MpscQueue.Consumer.errand] at errand
  next =>
    intro here
    simp [here, Printer.warned] at unwarned

section Client

variable {now : ConsoleLogger P}

theorem aside (ok : Ok owed logger) (queue : now.queue.Safe)
    (aside : MpscQueue.Aside logger.queue now.queue)
    (clients : ∀ client,
      (now.clients client).calling = false → now.queue.producers client = .idle)
    (lowered : logger.queue.running = false → now.queue.running = false)
    (printer : now.printer = logger.printer) (screen : now.screen = logger.screen)
    (joined : now.joined = true → logger.printer = .finished) : Ok owed now where
  queue := queue
  clients := clients
  errand := by rw [aside.errand, printer, ok.errand]
  warned := by
    rw [printer]
    exact fun warned => lowered (ok.warned warned)
  screen := by rw [aside.removed, aside.inHand, printer, screen, ok.screen]
  joined := by rwa [printer]
  accepted := ok.accepted.trans (aside.accepted.map Prod.snd)
  drained := by
    rw [aside.removed]
    exact fun here => ok.drained (aside.unlock _ _ here)
  finished := by
    rw [aside.removed, printer]
    exact ok.finished

theorem setClient (ok : Ok owed logger) {phase : Client}
    (outside : (logger.clients client).calling = false) : Ok owed (logger.setClient client phase) := by
  refine ok.aside ok.queue ⟨rfl, rfl, fun _ _ => id, rfl, List.prefix_rfl⟩ ?_ id rfl rfl ok.joined
  intro other calling
  by_cases same : other = client
  next => exact same ▸ ok.clients client outside
  next => exact ok.clients other (setClient_other phase same ▸ calling)

theorem call (ok : Ok owed logger) {queue : MpscQueue P ConsoleMessage}
    {entered : MpscQueue.Producer ConsoleMessage} {phase : Client}
    (safe : (queue.enterProducer client entered).Safe)
    (aside : MpscQueue.Aside logger.queue queue)
    (producers : queue.producers = logger.queue.producers)
    (lowered : logger.queue.running = false → queue.running = false)
    (calling : phase.calling = true) :
    Ok owed { logger.setClient client phase with queue := queue.enterProducer client entered } := by
  have entering : MpscQueue.Aside queue (queue.enterProducer client entered) := .enterProducer
  refine ok.aside safe ?_ ?_ ?_ rfl rfl ok.joined
  next =>
    exact ⟨entering.errand.trans aside.errand, entering.inHand.trans aside.inHand,
      fun _ _ here => aside.unlock _ _ (entering.unlock _ _ here),
      entering.removed.trans aside.removed, aside.accepted.trans entering.accepted⟩
  next =>
    intro other outside
    by_cases same : other = client
    next =>
      have outside : ((logger.setClient client phase).clients other).calling = false := outside
      rw [same, setClient_self, calling] at outside
      nomatch outside
    next =>
      have outside : ((logger.setClient client phase).clients other).calling = false := outside
      rw [setClient_other phase same] at outside
      rw [MpscQueue.enterProducer_other same, producers]
      exact ok.clients other outside
  next =>
    intro down
    rw [MpscQueue.enterProducer_running]
    exact lowered down

theorem callOn (ok : Ok owed logger) {after : Client}
    (inside : (logger.clients client).calling = true) : Ok owed (logger.callOn client after) := by
  have safe := ok.queue.step (.produce client)
  have running : (logger.queue.step (.produce client)).running = logger.queue.running :=
    MpscQueue.produce_running
  unfold ConsoleLogger.callOn
  dsimp only
  split
  next back =>
    refine ok.aside safe .produce ?_ (fun down => running.trans down) rfl rfl ok.joined
    intro other outside
    by_cases same : other = client
    next => exact same ▸ back
    next =>
      have outside : ((logger.setClient client after).clients other).calling = false := outside
      rw [setClient_other after same] at outside
      exact (MpscQueue.produce_other same).trans (ok.clients other outside)
  next =>
    refine ok.aside safe .produce ?_ (fun down => running.trans down) rfl rfl ok.joined
    intro other outside
    have different : other ≠ client := by
      rintro rfl
      rw [show (logger.clients other).calling = false from outside] at inside
      nomatch inside
    exact (MpscQueue.produce_other different).trans (ok.clients other outside)

theorem act (ok : Ok owed logger) (client : P) : Ok owed (logger.act client) := by
  have still : MpscQueue.Aside logger.queue logger.queue :=
    ⟨rfl, rfl, fun _ _ => id, rfl, List.prefix_rfl⟩
  unfold ConsoleLogger.act
  cases here : logger.clients client with
  | idle => exact ok
  | log category msg =>
    dsimp only
    split
    next => exact ok.call (ok.queue.step (.push client _)) still rfl id rfl
    next => exact ok.setClient (by rw [here]; rfl)
  | logDirect category msg =>
    have quiet : Ok owed (logger.setClient client .idle) := ok.setClient (by rw [here]; rfl)
    exact { quiet with }
  | logPush => exact ok.callOn (by rw [here]; rfl)
  | tryLog category msg =>
    dsimp only
    split
    next => exact ok.call (ok.queue.step (.tryPush client _)) still rfl id rfl
    next => exact ok.setClient (by rw [here]; rfl)
  | tryLogPush => exact ok.callOn (by rw [here]; rfl)
  | shutdown => exact ok.setClient (by rw [here]; rfl)
  | shutdownStore =>
    have lowered := ok.queue.step (.setRunning false)
    exact ok.call (lowered.step (.push client .dummy))
      ⟨rfl, rfl, fun _ _ => id, rfl, List.prefix_rfl⟩ rfl (fun _ => rfl) rfl
  | shutdownPush => exact ok.callOn (by rw [here]; rfl)
  | join =>
    dsimp only
    split
    next => exact ok.setClient (by rw [here]; rfl)
    next =>
      split
      next finished =>
        have quiet : Ok owed (logger.setClient client .idle) := ok.setClient (by rw [here]; rfl)
        exact { quiet with joined := fun _ => finished }
      next => exact ok

theorem enter (ok : Ok owed logger) (client : P) (call : Client) :
    Ok owed (logger.enter client call) := by
  unfold ConsoleLogger.enter
  split
  next idle => exact ok.setClient (by rw [idle]; rfl)
  next => exact ok

end Client

section Printer

open MpscQueue (Turned)

theorem turn (ok : Ok owed logger) (busy : logger.printer ≠ .finished) {now : ConsoleLogger P}
    {consumer : MpscQueue.Consumer ConsoleMessage} (queue : now.queue.Safe)
    (turned : Turned logger.queue now.queue consumer)
    (clients : now.clients = logger.clients) (joined : now.joined = logger.joined)
    (errand : consumer.errand = now.printer.errand) (hand : consumer.ending = false)
    (warned : now.printer.warned = true → logger.queue.running = false)
    (screen : linesOf logger.queue.removed = now.screen ++ linesOf now.printer.inHand)
    (finished : now.printer = .finished → owed <+: logger.queue.removed) : Ok owed now where
  queue := queue
  clients := by
    rw [clients, turned.producers]
    exact ok.clients
  errand := by rw [turned.consumer, errand]
  warned := by
    rw [turned.running]
    exact warned
  screen := by
    have nothing : consumer.inHand = [] := by
      cases consumer with
      | unlock call result => nomatch hand
      | _ => rfl
    rw [turned.removed, turned.consumer, nothing, List.append_nil, screen]
  joined := by
    rw [joined]
    exact fun done => absurd (ok.joined done) busy
  accepted := by
    rw [turned.accepted]
    exact ok.accepted
  drained := by
    intro here
    rw [turned.consumer] at here
    rw [here] at hand
    nomatch hand
  finished := by
    rw [turned.removed]
    exact finished

theorem callOnward (ok : Ok owed logger) (on : logger.queue.consumer.ending = false) :
    Ok owed { logger with queue := logger.queue.step .consume } := by
  obtain ⟨errand, removed⟩ := MpscQueue.consume_goes_on on
  have nothing : logger.queue.consumer.inHand = [] := by
    cases here : logger.queue.consumer with
    | unlock call result => simp [here, MpscQueue.Consumer.ending] at on
    | _ => rfl
  constructor
  case queue => exact ok.queue.step .consume
  case clients =>
    rw [MpscQueue.step, MpscQueue.consume_producers]
    exact ok.clients
  case errand => exact errand.trans ok.errand
  case warned => exact fun warned => MpscQueue.consume_running.trans (ok.warned warned)
  case screen =>
    have screen := ok.screen
    rw [nothing, List.append_nil] at screen
    simp only [MpscQueue.step, removed, linesOf_append, screen, List.append_assoc]
  case joined => exact ok.joined
  case accepted =>
    rw [MpscQueue.step, MpscQueue.consume_accepted]
    exact ok.accepted
  case drained =>
    intro here
    have empty := MpscQueue.consume_nothing on here
    have order := ok.queue.fifo.order
    rw [empty, List.append_nil] at order
    rw [MpscQueue.step, removed, ← order]
    exact ok.accepted.trans (List.prefix_append ..)
  case finished =>
    intro here
    rw [MpscQueue.step, removed]
    exact (ok.finished here).trans (List.prefix_append ..)

theorem screen_between (ok : Ok owed logger) (idle : logger.queue.consumer.inHand = []) :
    linesOf logger.queue.removed = logger.screen ++ linesOf logger.printer.inHand := by
  rw [ok.screen, idle, List.append_nil]

theorem startPop (ok : Ok owed logger) (busy : logger.printer ≠ .finished)
    {queue : MpscQueue P ConsoleMessage} (safe : queue.Safe) (turned : Turned logger.queue queue .idle)
    {call : MpscQueue.Pop} {printer : Printer} {screen : List Bytes}
    (errand : printer.errand = .pop call)
    (warned : printer.warned = true → logger.queue.running = false)
    (shown : linesOf logger.queue.removed = screen) :
    Ok owed { logger.startPop queue call printer with screen } := by
  have place : printer.inHand = [] ∧ printer ≠ .finished := by
    cases printer with
    | popping => exact ⟨rfl, nofun⟩
    | draining => exact ⟨rfl, nofun⟩
    | _ => nomatch errand
  refine ok.turn busy (safe.step (.pop call)) (turned.again (.lock call)) rfl rfl errand.symm rfl
    warned ?_ fun done => absurd done place.2
  rw [shown, show ({ logger.startPop queue call printer with screen } : ConsoleLogger P).printer.inHand
    = [] from place.1, linesOf_nil, List.append_nil]

theorem startLook (ok : Ok owed logger) (busy : logger.printer ≠ .finished)
    (idle : logger.queue.consumer = .idle) (down : logger.queue.running = false) {printer : Printer}
    (errand : printer.errand = .look) (shown : linesOf logger.queue.removed = logger.screen) :
    Ok owed (logger.startLook printer) := by
  have place : printer.inHand = [] ∧ printer ≠ .finished := by
    cases printer with
    | headLook => exact ⟨rfl, nofun⟩
    | elseLook => exact ⟨rfl, nofun⟩
    | _ => nomatch errand
  refine ok.turn busy (ok.queue.step .look) (Turned.enter idle .look) rfl rfl errand.symm rfl
    (fun _ => down) ?_ fun done => absurd done place.2
  rw [shown, show (logger.startLook printer).printer.inHand = [] from place.1, linesOf_nil,
    List.append_nil]
  rfl

theorem print (ok : Ok owed logger) : Ok owed logger.print := by
  have errand := ok.errand
  cases here : logger.printer with
  | head =>
    have busy : logger.printer ≠ .finished := by rw [here]; exact nofun
    have idle : logger.queue.consumer = .idle :=
      MpscQueue.Consumer.idle_of_errand (by rw [errand, here]; rfl)
    have shown : linesOf logger.queue.removed = logger.screen := by
      rw [ok.screen_between (by rw [idle]; rfl), here]
      simp [Printer.inHand]
    simp only [ConsoleLogger.print, here]
    split
    next up => exact ok.startPop busy ok.queue ⟨rfl, rfl, rfl, rfl, idle⟩ rfl nofun shown
    next down => exact ok.startLook busy idle (by simpa using down) rfl shown
  | headLook =>
    rw [here] at errand
    rcases MpscQueue.Consumer.ending_of_look errand with on | ⟨found, ending⟩
    next =>
      rw [print_on on (by rw [here]; exact nofun)]
      exact ok.callOnward on
    next =>
      have busy : logger.printer ≠ .finished := by rw [here]; exact nofun
      have turned : Turned logger.queue logger.queue.consume .idle := .consume (by rw [ending]; rfl)
      have shown : linesOf logger.queue.removed = logger.screen := by
        rw [ok.screen_between (by rw [ending]; rfl), here]
        simp [Printer.inHand]
      have down := ok.warned (by rw [here]; rfl)
      simp only [ConsoleLogger.print, here, ending]
      cases found with
      | nil => exact ok.startPop busy (ok.queue.step .consume) turned rfl (fun _ => down) shown
      | cons _ _ => exact ok.startPop busy (ok.queue.step .consume) turned rfl nofun shown
  | popping =>
    rw [here] at errand
    rcases MpscQueue.Consumer.ending_of_pop errand with on | ⟨result, ending⟩
    next =>
      rw [print_on on (by rw [here]; exact nofun)]
      exact ok.callOnward on
    next =>
      have busy : logger.printer ≠ .finished := by rw [here]; exact nofun
      have turned : Turned logger.queue logger.queue.consume .idle := .consume (by rw [ending]; rfl)
      have screen := ok.screen
      rw [here, ending] at screen
      simp only [ConsoleLogger.print, here, ending]
      exact ok.turn busy (ok.queue.step .consume) turned rfl rfl rfl rfl nofun screen nofun
  | popped result =>
    have busy : logger.printer ≠ .finished := by rw [here]; exact nofun
    have idle : logger.queue.consumer = .idle :=
      MpscQueue.Consumer.idle_of_errand (by rw [errand, here]; rfl)
    have screen := ok.screen_between (by rw [idle]; rfl)
    rw [here] at screen
    simp only [ConsoleLogger.print, here]
    split
    next nothing =>
      have shown : linesOf logger.queue.removed = logger.screen := by
        simpa [linesOf, Printer.inHand, nothing] using screen
      split
      next up =>
        refine ok.turn busy ok.queue ⟨rfl, rfl, rfl, rfl, idle⟩ rfl rfl rfl rfl nofun ?_ nofun
        simpa [Printer.inHand] using shown
      next down => exact ok.startLook busy idle (by simpa using down) rfl shown
    next =>
      refine ok.turn busy ok.queue ⟨rfl, rfl, rfl, rfl, idle⟩ rfl rfl rfl rfl nofun ?_ nofun
      simpa [linesOf, Printer.inHand] using screen
  | elseLook =>
    rw [here] at errand
    rcases MpscQueue.Consumer.ending_of_look errand with on | ⟨found, ending⟩
    next =>
      rw [print_on on (by rw [here]; exact nofun)]
      exact ok.callOnward on
    next =>
      have busy : logger.printer ≠ .finished := by rw [here]; exact nofun
      have turned : Turned logger.queue logger.queue.consume .idle := .consume (by rw [ending]; rfl)
      have shown : linesOf logger.queue.removed = logger.screen := by
        rw [ok.screen_between (by rw [ending]; rfl), here]
        simp [Printer.inHand]
      have down := ok.warned (by rw [here]; rfl)
      simp only [ConsoleLogger.print, here, ending]
      cases found with
      | nil => exact ok.startPop busy (ok.queue.step .consume) turned rfl (fun _ => down) shown
      | cons _ _ =>
        refine ok.turn busy (ok.queue.step .consume) turned rfl rfl rfl rfl nofun ?_ nofun
        simpa [Printer.inHand] using shown
  | draining =>
    rw [here] at errand
    rcases MpscQueue.Consumer.ending_of_pop errand with on | ⟨result, ending⟩
    next =>
      rw [print_on on (by rw [here]; exact nofun)]
      exact ok.callOnward on
    next =>
      have busy : logger.printer ≠ .finished := by rw [here]; exact nofun
      have turned : Turned logger.queue logger.queue.consume .idle := .consume (by rw [ending]; rfl)
      have down := ok.warned (by rw [here]; rfl)
      have screen := ok.screen
      rw [here, ending] at screen
      simp only [ConsoleLogger.print, here, ending]
      cases result with
      | none =>
        refine ok.turn busy (ok.queue.step .consume) turned rfl rfl rfl rfl (fun _ => down) ?_
          fun _ => ok.drained ending
        simpa [Printer.inHand, MpscQueue.Consumer.inHand] using screen
      | some message =>
        refine ok.startPop busy (ok.queue.step .consume) turned rfl (fun _ => down) ?_
        simpa [linesOf, Printer.inHand, MpscQueue.Consumer.inHand] using screen
  | finished =>
    simp only [ConsoleLogger.print, here]
    exact ok

end Printer

theorem step (ok : Ok owed logger) (action : Action P) : Ok owed (logger.step action) := by
  cases action with
  | log client category msg => exact ok.enter client _
  | tryLog client category msg => exact ok.enter client _
  | shutdown client => exact ok.enter client _
  | act client => exact ok.act client
  | print => exact ok.print
  | timeout =>
    exact ok.aside (ok.queue.step .timeout) .timeout ok.clients id rfl rfl ok.joined
  | spurious =>
    exact ok.aside (ok.queue.step .spurious) .notify ok.clients id rfl rfl ok.joined

theorem run (ok : Ok owed logger) (actions : List (Action P)) : Ok owed (logger.run actions) := by
  induction actions generalizing logger with
  | nil => exact ok
  | cons action actions ih => exact ih (ok.step action)

end Ok

theorem shows_accepted (earlier later : List (Action P))
    (up : (({} : ConsoleLogger P).run earlier).queue.running = true) :
    let before := ({} : ConsoleLogger P).run earlier
    let now := before.run later
    now.screen <+: linesOf (now.queue.accepted.map Prod.snd) ∧
      (now.joined = true → linesOf (before.queue.accepted.map Prod.snd) <+: now.screen) := by
  intro before now
  have ok : Ok (before.queue.accepted.map Prod.snd) now :=
    ((Ok.start.run earlier).owing up).run later
  have order := congrArg linesOf ok.queue.fifo.order
  rw [linesOf_append, ok.screen, List.append_assoc] at order
  refine ⟨order ▸ List.prefix_append .., ?_⟩
  intro joined
  have finished := ok.joined joined
  have idle : now.queue.consumer = .idle :=
    MpscQueue.Consumer.idle_of_errand (by rw [ok.errand, finished]; rfl)
  have screen := ok.screen
  rw [finished, idle] at screen
  obtain ⟨rest, whole⟩ := ok.finished finished
  refine ⟨linesOf rest, ?_⟩
  rw [← linesOf_append, whole, screen]
  exact List.append_nil now.screen

theorem shows_accepted_pair :
    let before := ({} : ConsoleLogger Bool).run
      (.log true .warnMsg [72, 70, 84] :: List.replicate 6 (.act true))
    let now := before.run
      (.log false .infoMsg [33] :: .act false :: .shutdown true ::
        List.replicate 8 (.act true) ++ List.replicate 5 (.act false) ++ List.replicate 60 .print ++
          [.act true])
    linesOf (before.queue.accepted.map Prod.snd) <+: now.screen :=
  (shows_accepted _ _ (by decide +kernel)).2 (by decide +kernel)

end ConsoleLogger

end HftFixEngine.Common
