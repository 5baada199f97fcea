import Outbox.Simulation.World
/-! A relay that takes messages one at a time, so that its ticks never overlap, and the scheduler that asks
it for a tick, waits for the tick to end and pauses before it asks again. A client sends messages of its own
and may wait for the answer. Things happen in the order of time; what is due at the very end of a client's
wait happens after it. -/

namespace Outbox.Simulation

open Relay (Program Report Stats)

/-- Who waits for the answer to a message. -/
inductive Asker
  | client
  | scheduler
  | nobody
deriving DecidableEq, Repr, Inhabited

inductive Letter
  | runTick (asker : Asker)
  | tellStats (asker : Asker)
  /-- The relay takes no message after this one. -/
  | stop
deriving DecidableEq, Repr, Inhabited

inductive Reply
  /-- The report of a tick, unless a fault ended it. -/
  | ticked (report : Option Report)
  | stats (stats : Stats)
  | stopped
deriving DecidableEq, Repr, Inhabited

inductive Scheduler
  /-- Its message is sent but not answered yet. -/
  | asking
  | pausing (wake : Nat)
  | ended
deriving DecidableEq, Repr, Inhabited

/-- What a tick returns to the dispatcher: how it ended, and the new totals. -/
abbrev TickResult := Except String (Option Report) × Stats

/-- A tick that waits for deliveries. -/
structure Busy where
  asker : Asker
  flights : List Flight
  rest : Program TickResult

structure Dispatcher where
  relay : Relay
  stats : Stats := {}
  mailbox : List Letter := []
  busy : Option Busy := none
  alive : Bool := true
  scheduler : Scheduler := .ended
  /-- The answer that the client waits for. -/
  reply : Option Reply := none

namespace Dispatcher

variable {σ : Type}

/-- A dispatcher; with a scheduler its first tick is asked for at once. -/
def start (relay : Relay) (scheduled : Bool) : Dispatcher :=
  if scheduled then { relay := relay, mailbox := [.runTick .scheduler], scheduler := .asking }
  else { relay := relay }

/-- Hands an answer to whoever waits for it. The scheduler takes any answer as leave to go on. -/
def deliver (d : Dispatcher) (now : Nat) (asker : Asker) (reply : Reply) : Dispatcher :=
  match asker with
  | .client => { d with reply := some reply }
  | .scheduler => { d with scheduler := .pausing (now + d.relay.config.pause.timerMillis) }
  | .nobody => d

/-- The end of the dispatcher: whoever waits hears of it, and nothing is handled any more. -/
def close (d : Dispatcher) : Dispatcher :=
  { d with
    alive := false, mailbox := [], busy := none, reply := some .stopped
    scheduler := match d.scheduler with
      | .asking => .ended
      | other => other }

/-- Takes over what a tick came to. A crash ends the dispatcher. -/
def settle (d : Dispatcher) (asker : Asker) : Progress TickResult × World σ → Dispatcher × World σ
  | (.waiting flights rest, w) => ({ d with busy := some ⟨asker, flights, rest⟩ }, w)
  | (.finished (.ok report, stats), w) =>
    (({ d with busy := none, stats := stats }).deliver w.elapsed asker (.ticked report), w)
  | (.finished (.error _, stats), w) => (({ d with stats := stats }).close, w)

/-- Sends the scheduler's next message if its pause is over at a time. -/
def wake (d : Dispatcher) (time : Nat) : Dispatcher :=
  match d.scheduler with
  | .pausing t =>
    if t > time then d
    else if d.alive then { d with scheduler := .asking, mailbox := d.mailbox ++ [.runTick .scheduler] }
    else { d with scheduler := .ended }
  | _ => d

def handle (b : Backend σ) (limit : Option Nat) (d : Dispatcher) (w : World σ) :
    Letter → Dispatcher × World σ
  | .runTick asker => d.settle asker (w.run b limit (d.relay.runTick d.stats))
  | .tellStats asker => (d.deliver w.elapsed asker (.stats d.stats), w)
  | .stop => (d.close, w)

/-- When the scheduler's pause is over, if that is due. -/
def nextWake? (d : Dispatcher) (limit : Option Nat) : Option Nat :=
  match d.scheduler with
  | .pausing t => if World.isDue limit t then some t else none
  | _ => none

/-- The next thing that happens within the limit; none if nothing does. -/
def step (b : Backend σ) (limit : Option Nat) (d : Dispatcher) (w : World σ) :
    Option (Dispatcher × World σ) :=
  match d.busy with
  | some busy =>
    match busy.flights with
    | [] => some (d.settle busy.asker (w.run b limit busy.rest))
    | next :: _ =>
      if World.isDue limit next.finish then
        some (({ d with busy := none }).settle busy.asker (w.resume b limit busy.flights busy.rest))
      else none
  | none =>
    match d.mailbox with
    | letter :: rest => some (({ d with mailbox := rest }).handle b limit w letter)
    | [] => (d.nextWake? limit).map fun t => (d.wake t, w.waitUntil t)

/-- What happens until the client has its answer or nothing is left to happen within the limit. -/
def work (b : Backend σ) (limit : Option Nat) : (fuel : Nat) → Dispatcher → World σ → Dispatcher × World σ
  | 0, d, w => (d, w)
  | fuel + 1, d, w =>
    if d.reply.isSome then (d, w)
    else match d.step b limit w with
      | none => (d, w)
      | some (d, w) => work b limit fuel (d.wake w.elapsed) w

/-- A message may be followed by one of the scheduler, and its tick may wait once for deliveries. -/
def fuelFor (d : Dispatcher) (time : Nat) : Nat := 4 * (d.mailbox.length + time + 2)

/-! ### The client -/

/-- Sends a message without waiting; says whether it is taken. -/
def tell (d : Dispatcher) (letter : Letter) : Bool × Dispatcher :=
  if d.alive then (true, { d with mailbox := d.mailbox ++ [letter] }) else (false, d)

/-- Sends a message and waits for the answer. -/
def ask (b : Backend σ) (letter : Letter) (d : Dispatcher) (w : World σ) : Reply × Dispatcher × World σ :=
  if !d.alive then (.stopped, d, w)
  else
    let d := { d with mailbox := d.mailbox ++ [letter], reply := none }
    let (d, w) := d.work b none (d.fuelFor 0) w
    (d.reply.getD .stopped, { d with reply := none }, w)

/-- Waits for so many milliseconds. -/
def sleep (b : Backend σ) (ms : Nat) (d : Dispatcher) (w : World σ) : Dispatcher × World σ :=
  if ms = 0 then (d, w)
  else
    let finish := w.elapsed + ms
    let (d, w) := { d with reply := none }.work b (some (finish - 1)) (d.fuelFor ms) w
    ({ d with reply := none }.wake (finish - 1), w.waitUntil finish)

end Dispatcher

end Outbox.Simulation
