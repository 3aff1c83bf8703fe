import HftFixEngine.Common.ConsoleOrder
import HftFixEngine.Shared.Run

set_option autoImplicit false

namespace HftFixEngine.Common

namespace MpscQueue

variable {P T : Type} [DecidableEq P] {exec : MpscQueue P T}

def Roused (exec : MpscQueue P T) : Prop :=
  exec.running = false → exec.consumer.sleeping = true →
    ∃ producer, (exec.producers producer).due = true

theorem step_running_eq {action : Action P T} (other : ∀ running, action ≠ .setRunning running) :
    (exec.step action).running = exec.running := by
  cases action with
  | produce producer => exact produce_running
  | consume => exact consume_running
  | setRunning running => exact absurd rfl (other running)
  | _ => simp [step, notify]

theorem Roused.step (roused : Roused exec) {action : Action P T}
    (other : ∀ running, action ≠ .setRunning running) : Roused (exec.step action) := by
  intro down asleep
  have slept := step_asleep asleep
  rw [step_running_eq other] at down
  rcases slept.since with before | ⟨_, up⟩
  next =>
    obtain ⟨producer, due⟩ := roused down before
    exact ⟨producer, slept.due producer due⟩
  next =>
    rw [down] at up
    nomatch up

omit [DecidableEq P] in
theorem Quiet.awake (quiet : Quiet exec) (roused : Roused exec) (down : exec.running = false) :
    exec.consumer.sleeping = false := by
  rw [← Bool.not_eq_true]
  intro asleep
  obtain ⟨producer, due⟩ := roused down asleep
  rw [quiet producer] at due
  nomatch due

end MpscQueue

namespace ConsoleLogger

variable {P : Type} [DecidableEq P] {logger : ConsoleLogger P} {owed : List ConsoleMessage}

section Roused

open MpscQueue (Roused)

theorem roused_act (ok : Ok owed logger) (roused : Roused logger.queue) (client : P) :
    Roused (logger.act client).queue := by
  have produced : Roused (logger.queue.step (.produce client)) := roused.step nofun
  have calledOn (after : Client) : Roused (logger.callOn client after).queue := by
    unfold callOn
    dsimp only
    split <;> exact produced
  unfold act
  cases here : logger.clients client with
  | log category msg =>
    dsimp only
    split
    next => exact roused.step nofun
    next => exact roused
  | logPush => exact calledOn .idle
  | tryLog category msg =>
    dsimp only
    split
    next => exact roused.step nofun
    next => exact roused
  | tryLogPush => exact calledOn .idle
  | shutdownStore =>
    have idle := ok.clients client (by rw [here]; rfl)
    intro _ _
    refine ⟨client, ?_⟩
    simp [MpscQueue.step, MpscQueue.enterProducer, idle, MpscQueue.setProducer,
      MpscQueue.Producer.due]
  | shutdownPush => exact calledOn .join
  | join =>
    dsimp only
    split
    next => exact roused
    next => split <;> exact roused
  | _ => exact roused

theorem roused_print (roused : Roused logger.queue) : Roused logger.print.queue := by
  have consumed : Roused (logger.queue.step .consume) := roused.step nofun
  have started (call : MpscQueue.Pop) :
      Roused ((logger.queue.step .consume).step (.pop call)) := consumed.step nofun
  have looked : Roused (logger.queue.step .look) := roused.step nofun
  unfold print
  cases logger.printer with
  | head =>
    dsimp only
    split
    next => exact roused.step nofun
    next => exact looked
  | headLook =>
    dsimp only
    split
    next => exact started .tryPop
    next => exact started .popWithTimeout
    next => exact consumed
  | popping =>
    dsimp only
    split <;> exact consumed
  | popped result =>
    dsimp only
    split
    next =>
      split
      next => exact roused
      next => exact looked
    next => exact roused
  | elseLook =>
    dsimp only
    split
    next => exact started .tryPop
    next => exact consumed
    next => exact consumed
  | draining =>
    dsimp only
    split
    next => exact started .tryPop
    next => exact consumed
    next => exact consumed
  | finished => exact roused

theorem roused_step (ok : Ok owed logger) (roused : Roused logger.queue) (action : Action P) :
    Roused (logger.step action).queue := by
  have entered (client : P) (call : Client) : Roused (logger.enter client call).queue := by
    unfold enter
    split <;> exact roused
  cases action with
  | act client => exact roused_act ok roused client
  | print => exact roused_print roused
  | timeout => exact roused.step nofun
  | spurious => exact roused.step nofun
  | _ => exact entered _ _

theorem roused_run (ok : Ok owed logger) (roused : Roused logger.queue) (actions : List (Action P)) :
    Roused (logger.run actions).queue := by
  induction actions generalizing logger with
  | nil => exact roused
  | cons action actions ih => exact ih (ok.step action) (roused_step ok roused action)

end Roused

section Progress

open MpscQueue (Quiet Roused)

def lookRank : MpscQueue.Consumer ConsoleMessage → Nat
  | .look => 3
  | .lookFind => 2
  | _ => 1

-- Before an item is taken the round counts with the items that wait, afterwards with those that are
-- left.
def roundRank (waiting place : Nat) : Nat :=
  if waiting = 0 then 14 + place else 60 * (waiting - 1) + 40 + place

def popRank (waiting : Nat) : MpscQueue.Consumer ConsoleMessage → Nat
  | .check _ => roundRank waiting 8
  | .expired => roundRank waiting 8
  | .take _ => roundRank waiting 7
  | .move _ _ _ => roundRank waiting 6
  | .unlock _ none => 60 * waiting + 12
  | .unlock _ (some _) => 60 * waiting + 38
  | _ => roundRank waiting 9

def drainRank (waiting : Nat) : MpscQueue.Consumer ConsoleMessage → Nat
  | .check _ => 8 * waiting + 4
  | .awake _ => 8 * waiting + 5
  | .take _ => 8 * waiting + 3
  | .move _ _ _ => 8 * waiting + 2
  | .unlock _ none => 8 * waiting + 1
  | .unlock _ (some _) => 8 * waiting + 7
  | _ => 8 * waiting + 6

def rank (logger : ConsoleLogger P) : Nat :=
  let waiting := logger.queue.queue.length
  match logger.printer with
  | .head => roundRank waiting 13
  | .headLook => roundRank waiting (lookRank logger.queue.consumer + 9)
  | .popping => popRank waiting logger.queue.consumer
  | .popped result => 60 * waiting + if result.isSome then 37 else 11
  | .elseLook => 60 * waiting + lookRank logger.queue.consumer + 7
  | .draining => drainRank waiting logger.queue.consumer
  | .finished => 0

theorem print_producers : logger.print.queue.producers = logger.queue.producers := by
  unfold print
  cases logger.printer with
  | head =>
    dsimp only
    split <;> exact MpscQueue.enterConsumer_producers _
  | popped result =>
    dsimp only
    split
    next =>
      split
      next => rfl
      next => exact MpscQueue.enterConsumer_producers _
    next => rfl
  | finished => rfl
  | _ =>
    dsimp only
    split <;>
      simp only [startPop, MpscQueue.step, MpscQueue.enterConsumer_producers,
        MpscQueue.consume_producers]

theorem print_running : logger.print.queue.running = logger.queue.running := by
  unfold print
  cases logger.printer with
  | head =>
    dsimp only
    split <;> exact MpscQueue.enterConsumer_running _
  | popped result =>
    dsimp only
    split
    next =>
      split
      next => rfl
      next => exact MpscQueue.enterConsumer_running _
    next => rfl
  | finished => rfl
  | _ =>
    dsimp only
    split <;>
      simp only [startPop, MpscQueue.step, MpscQueue.enterConsumer_running,
        MpscQueue.consume_running]

structure Winding (logger : ConsoleLogger P) : Prop where
  ok : Ok [] logger
  quiet : Quiet logger.queue
  down : logger.queue.running = false
  roused : Roused logger.queue

namespace Winding

variable (winding : Winding logger)

include winding

theorem free (outside : logger.queue.consumer.inside = false) : logger.queue.owner = none :=
  winding.quiet.free winding.ok.queue outside

theorem awake : logger.queue.consumer.sleeping = false :=
  winding.quiet.awake winding.roused winding.down

theorem found {contents : List ConsoleMessage}
    (found : logger.queue.consumer.found = some contents) : logger.queue.queue = contents :=
  (winding.ok.queue.fifo.consumer contents found).symm

theorem look_closer (errand : logger.queue.consumer.errand = .look)
    (on : logger.queue.consumer.ending = false) :
    logger.queue.consume.queue = logger.queue.queue ∧
      lookRank logger.queue.consume.consumer < lookRank logger.queue.consumer := by
  cases here : logger.queue.consumer with
  | look =>
    have free := winding.free (by rw [here]; rfl)
    simp [MpscQueue.consume, here, MpscQueue.lockConsumer, free, lookRank]
  | lookFind => simp [MpscQueue.consume, here, lookRank]
  | lookUnlock found => simp [here, MpscQueue.Consumer.ending] at on
  | _ => simp [here, MpscQueue.Consumer.errand] at errand

theorem pop_closer {call : MpscQueue.Pop} (errand : logger.queue.consumer.errand = .pop call)
    (on : logger.queue.consumer.ending = false) :
    popRank logger.queue.consume.queue.length logger.queue.consume.consumer <
      popRank logger.queue.queue.length logger.queue.consumer := by
  have down := winding.down
  cases here : logger.queue.consumer with
  | lock call =>
    have free := winding.free (by rw [here]; rfl)
    cases call <;>
    next =>
      simp only [MpscQueue.consume, here, MpscQueue.lockConsumer, free, popRank, roundRank]
      split <;> omega
  | check call =>
    simp only [MpscQueue.consume, here, down, Bool.not_false, Bool.or_true, if_true, popRank,
      roundRank]
    split <;> omega
  | asleep call =>
    have awake := winding.awake
    simp [here, MpscQueue.Consumer.sleeping] at awake
  | awake call =>
    have free := winding.free (by rw [here]; rfl)
    simp only [MpscQueue.consume, here, MpscQueue.lockConsumer, free, popRank, roundRank]
    split <;> omega
  | expired =>
    have free := winding.free (by rw [here]; rfl)
    simp only [MpscQueue.consume, here, MpscQueue.lockConsumer, free, popRank, roundRank]
    split <;> omega
  | take call =>
    cases items : logger.queue.queue with
    | nil => simp [MpscQueue.consume, here, items, popRank, roundRank]
    | cons item rest => simp [MpscQueue.consume, here, items, popRank, roundRank]
  | move call item rest =>
    have items := winding.found (by rw [here]; rfl)
    simp only [MpscQueue.consume, here, items, popRank, roundRank, List.length_cons]
    split <;> omega
  | unlock call result => simp [here, MpscQueue.Consumer.ending] at on
  | lookUnlock found => simp [here, MpscQueue.Consumer.ending] at on
  | _ => simp [here, MpscQueue.Consumer.errand] at errand

theorem drain_closer (errand : logger.queue.consumer.errand = .pop .tryPop)
    (on : logger.queue.consumer.ending = false) :
    drainRank logger.queue.consume.queue.length logger.queue.consume.consumer <
      drainRank logger.queue.queue.length logger.queue.consumer := by
  have down := winding.down
  cases here : logger.queue.consumer with
  | lock call =>
    have free := winding.free (by rw [here]; rfl)
    cases call <;>
    next =>
      simp only [MpscQueue.consume, here, MpscQueue.lockConsumer, free, drainRank]
      omega
  | check call =>
    simp only [MpscQueue.consume, here, down, Bool.not_false, Bool.or_true, if_true, drainRank]
    omega
  | asleep call =>
    have awake := winding.awake
    simp [here, MpscQueue.Consumer.sleeping] at awake
  | awake call =>
    have free := winding.free (by rw [here]; rfl)
    simp only [MpscQueue.consume, here, MpscQueue.lockConsumer, free, drainRank]
    omega
  | take call =>
    cases items : logger.queue.queue with
    | nil => simp [MpscQueue.consume, here, items, drainRank]
    | cons item rest => simp [MpscQueue.consume, here, items, drainRank]
  | move call item rest =>
    have items := winding.found (by rw [here]; rfl)
    simp only [MpscQueue.consume, here, items, drainRank, List.length_cons]
    omega
  | unlock call result => simp [here, MpscQueue.Consumer.ending] at on
  | lookUnlock found => simp [here, MpscQueue.Consumer.ending] at on
  | _ => simp [here, MpscQueue.Consumer.errand] at errand

theorem print_closer (busy : logger.printer ≠ .finished) : rank logger.print < rank logger := by
  have down := winding.down
  have errand := winding.ok.errand
  cases here : logger.printer with
  | head =>
    have idle : logger.queue.consumer = .idle :=
      MpscQueue.Consumer.idle_of_errand (by rw [errand, here]; rfl)
    simp only [print, here, down, startLook, MpscQueue.step, MpscQueue.enterConsumer, idle, rank,
      lookRank, roundRank, Bool.false_eq_true, if_false]
    split <;> omega
  | headLook =>
    rw [here] at errand
    rcases MpscQueue.Consumer.ending_of_look errand with on | ⟨found, ending⟩
    next =>
      obtain ⟨same, closer⟩ := winding.look_closer errand on
      rw [print_on on (by simp [here, Printer.errand])]
      simp only [rank, here, MpscQueue.step, same, roundRank]
      split <;> omega
    next =>
      have items := winding.found (by rw [ending]; rfl)
      cases found with
      | nil =>
        simp [print, here, ending, startPop, MpscQueue.step, MpscQueue.consume,
          MpscQueue.enterConsumer, rank, items, drainRank, lookRank, roundRank]
      | cons message rest =>
        simp [print, here, ending, startPop, MpscQueue.step, MpscQueue.consume,
          MpscQueue.enterConsumer, rank, items, popRank, lookRank, roundRank]
  | popping =>
    rw [here] at errand
    rcases MpscQueue.Consumer.ending_of_pop errand with on | ⟨result, ending⟩
    next =>
      rw [print_on on (by simp [here, Printer.errand])]
      simp only [rank, here, MpscQueue.step]
      exact winding.pop_closer errand on
    next =>
      cases result <;>
        simp [print, here, ending, MpscQueue.step, MpscQueue.consume, rank, popRank]
  | popped result =>
    have idle : logger.queue.consumer = .idle :=
      MpscQueue.Consumer.idle_of_errand (by rw [errand, here]; rfl)
    simp only [print, here]
    split
    next =>
      simp only [down, startLook, MpscQueue.step, MpscQueue.enterConsumer, idle, rank, here, lookRank,
        Bool.false_eq_true, if_false]
      split <;> omega
    next printed =>
      -- Nothing is printed for no message.
      cases result with
      | none => exact absurd rfl printed
      | some message =>
        simp only [rank, here, roundRank, Option.isSome_some, if_true]
        split <;> omega
  | elseLook =>
    rw [here] at errand
    rcases MpscQueue.Consumer.ending_of_look errand with on | ⟨found, ending⟩
    next =>
      obtain ⟨same, closer⟩ := winding.look_closer errand on
      rw [print_on on (by simp [here, Printer.errand])]
      simp only [rank, here, MpscQueue.step, same]
      omega
    next =>
      have items := winding.found (by rw [ending]; rfl)
      cases found with
      | nil =>
        simp [print, here, ending, startPop, MpscQueue.step, MpscQueue.consume,
          MpscQueue.enterConsumer, rank, items, drainRank, lookRank]
      | cons message rest =>
        simp only [print, here, ending, MpscQueue.step, MpscQueue.consume, rank, items, lookRank,
          roundRank, List.length_cons, Nat.succ_ne_zero, if_false]
        omega
  | draining =>
    rw [here] at errand
    rcases MpscQueue.Consumer.ending_of_pop errand with on | ⟨result, ending⟩
    next =>
      rw [print_on on (by simp [here, Printer.errand])]
      simp only [rank, here, MpscQueue.step]
      exact winding.drain_closer errand on
    next =>
      cases result with
      | none => simp [print, here, ending, rank, drainRank]
      | some message =>
        simp [print, here, ending, startPop, MpscQueue.step, MpscQueue.consume,
          MpscQueue.enterConsumer, rank, drainRank]
  | finished => exact absurd here busy

theorem print_closer_wound (busy : logger.printer ≠ .finished) :
    Winding logger.print ∧ rank logger.print < rank logger := by
  refine ⟨⟨winding.ok.print, ?_, ?_, roused_print winding.roused⟩, winding.print_closer busy⟩
  next =>
    intro producer
    rw [print_producers]
    exact winding.quiet producer
  next =>
    rw [print_running]
    exact winding.down

theorem print_finished (busy : logger.printer ≠ .finished) (done : logger.print.printer = .finished) :
    logger.print.queue.queue = [] := by
  unfold print at done ⊢
  cases here : logger.printer with
  | draining =>
    rw [here] at done
    simp only at done ⊢
    split at done
    next => simp [startPop] at done
    next call ending =>
      have nothing : logger.queue.queue = [] := winding.found (by rw [ending]; rfl)
      simp [ending, MpscQueue.step, MpscQueue.consume, nothing]
    next => simp at done
  | finished => exact absurd here busy
  | popped result =>
    rw [here] at done
    simp only [winding.down] at done
    split at done <;> simp [startLook] at done
  | _ =>
    rw [here] at done
    simp only at done
    split at done <;> simp [startPop, startLook] at done

-- Left alone, a thread that has not finished drains the queue and finishes.
theorem drains (busy : logger.printer ≠ .finished) :
    ∃ steps, (print^[steps] logger).printer = .finished ∧ (print^[steps] logger).queue.queue = [] := by
  have closer (state : ConsoleLogger P)
      (kept : Winding state ∧ (state.printer = .finished → state.queue.queue = []))
      (on : ¬ state.printer = .finished) :
      (Winding state.print ∧ (state.print.printer = .finished → state.print.queue.queue = [])) ∧
        rank state.print < rank state := by
    obtain ⟨wound, closer⟩ := kept.1.print_closer_wound on
    exact ⟨⟨wound, kept.1.print_finished on⟩, closer⟩
  obtain ⟨steps, ⟨-, empty⟩, finished⟩ :=
    Run.reaches closer ⟨winding, fun finished => absurd finished busy⟩
  exact ⟨steps, finished, empty finished⟩

end Winding

theorem shutdown_ends (actions : List (Action P))
    (down : (({} : ConsoleLogger P).run actions).queue.running = false)
    (outside : ∀ client,
      ((({} : ConsoleLogger P).run actions).clients client).calling = false) :
    ∃ steps,
      let logger := ConsoleLogger.print^[steps] (({} : ConsoleLogger P).run actions)
      logger.printer = .finished ∧
        ((({} : ConsoleLogger P).run actions).printer ≠ .finished → logger.queue.queue = []) ∧
        ∀ client, logger.clients client = .join → (logger.act client).clients client = .idle := by
  have ok : Ok [] (({} : ConsoleLogger P).run actions) := Ok.start.run actions
  have winding : Winding (({} : ConsoleLogger P).run actions) := {
    ok := ok
    quiet := fun client => ok.clients client (outside client)
    down := down
    roused := roused_run Ok.start (fun up => nomatch up) actions }
  have joins (logger : ConsoleLogger P) (finished : logger.printer = .finished) (client : P)
      (waiting : logger.clients client = .join) : (logger.act client).clients client = .idle := by
    unfold act
    rw [waiting]
    dsimp only
    split
    next => exact setClient_self .idle
    next =>
      rw [finished]
      exact setClient_self .idle
  by_cases finished : (({} : ConsoleLogger P).run actions).printer = .finished
  next => exact ⟨0, finished, fun busy => absurd finished busy, joins _ finished⟩
  next =>
    obtain ⟨steps, done, empty⟩ := winding.drains finished
    exact ⟨steps, done, fun _ => empty, joins _ done⟩

theorem shutdown_ends_asleep :
    let actions : List (Action Unit) :=
      List.replicate 3 .print ++ .shutdown () :: List.replicate 7 (.act ())
    ∃ steps,
      let logger := ConsoleLogger.print^[steps] (({} : ConsoleLogger Unit).run actions)
      logger.printer = .finished ∧ logger.queue.queue = [] := by
  intro actions
  obtain ⟨steps, finished, empty, -⟩ :=
    shutdown_ends actions (by decide +kernel) (fun () => by decide +kernel)
  have popping : (({} : ConsoleLogger Unit).run actions).printer = .popping := rfl
  exact ⟨steps, finished, empty (by simp [popping])⟩

end Progress

end ConsoleLogger

end HftFixEngine.Common
