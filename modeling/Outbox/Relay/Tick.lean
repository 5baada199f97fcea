import Outbox.Relay.Batch
import Outbox.Relay.Burial
/-! One tick of a relay: it claims a batch of rows, publishes them and records for each what became of it.
A row whose outcome is not recorded stays claimed, and is claimed again once its owner has been silent for
long enough. -/

namespace Outbox.Relay

/-- How a relay works. -/
structure Config where
  partition : Partition := .whole
  batchSize : Nat := 100
  /-- How long the owner of a row may be silent. -/
  stuck : Span := .ofSeconds 600
  /-- The pause between two ticks. -/
  pause : Span := .ofMillis 1000
deriving DecidableEq, Inhabited

end Relay

structure Relay where
  config : Relay.Config := {}
  publisher : Relay.Publisher
  graveyard : Relay.Graveyard
  policy : Retry.Policy := {}
deriving DecidableEq, Inhabited

namespace Relay

/-! ### Reports -/

/-- The rows of one tick. -/
structure Report where
  claimed : Nat := 0
  published : Nat := 0
  retried : Nat := 0
  deadLettered : Nat := 0
  /-- Rows that were not being sent any more when their outcome was to be recorded. -/
  skipped : Nat := 0
deriving DecidableEq, Repr, Inhabited

namespace Report

def isIdle (r : Report) : Bool := r.claimed == 0

def outcome (r : Report) : String :=
  if r.isIdle then "idle" else if r.retried == 0 && r.deadLettered == 0 then "ok" else "partial"

/-- The numbers by their names. -/
def numbers (r : Report) : List (String × Nat) := [("claimed", r.claimed), ("published", r.published),
  ("retried", r.retried), ("dead_lettered", r.deadLettered), ("skipped", r.skipped)]

def addRetry (r : Report) (marked : Bool) : Report :=
  if marked then { r with retried := r.retried + 1 } else { r with skipped := r.skipped + 1 }

def addBurial (r : Report) : Burial → Report
  | .deadLettered => { r with deadLettered := r.deadLettered + 1 }
  | .rescheduled => { r with retried := r.retried + 1 }
  | .skipped => { r with skipped := r.skipped + 1 }

end Report

/-- The rows of all ticks so far. -/
structure Stats where
  ticks : Nat := 0
  failedTicks : Nat := 0
  claimed : Nat := 0
  published : Nat := 0
  retried : Nat := 0
  deadLettered : Nat := 0
deriving DecidableEq, Repr, Inhabited

def Stats.add (s : Stats) (r : Report) : Stats :=
  { s with
    claimed := s.claimed + r.claimed
    published := s.published + r.published
    retried := s.retried + r.retried
    deadLettered := s.deadLettered + r.deadLettered }

/-- The numbers by their names. -/
def Stats.numbers (s : Stats) : List (String × Nat) := [("ticks", s.ticks), ("failed_ticks", s.failedTicks),
  ("claimed", s.claimed), ("published", s.published), ("retried", s.retried), ("dead_lettered", s.deadLettered)]

/-! ### A tick -/

/-- The text of the crash on a store that says it marked more rows than it was asked to. -/
def countUnderflow : String := "attempt to subtract with overflow"

/-- Records that rows were published. -/
def recordDelivered (ids : List Int) (report : Report) : Program.Interruptible Report := do
  if ids.isEmpty then return report
  let marked ← Program.ask (.markPublished ids (← Program.now))
  if marked > ids.length then throw (.crash countUnderflow)
  return { report with published := marked, skipped := report.skipped + (ids.length - marked) }

/-- Records that a row failed: it is to be tried again later, or it is given up. -/
def recordFailed (relay : Relay) (failed : FailedRow) (report : Report) : Program.Interruptible Report := do
  Program.note (.publishFailure failed.retryable)
  match failed.disposition relay.policy with
  | .retryAfter delay =>
    let now ← Program.now
    return report.addRetry (← Program.ask (.markFailed failed.row.id failed.failure.message delay now))
  | .deadLetter =>
    return report.addBurial (← relay.graveyard.bury failed (relay.policy.delayAfter failed.row.attempt))

def recordAllFailed (relay : Relay) : List FailedRow → Report → Program.Interruptible Report
  | [], report => return report
  | failed :: rest, report => do
    relay.recordAllFailed rest (← relay.recordFailed failed report)

/-- Claims as of `now`, publishes, and records each outcome. -/
def tickAt (relay : Relay) (now : Instant) : Program.Interruptible Report := do
  let c := relay.config
  let rows ← Program.ask (.claim c.partition c.batchSize now c.stuck)
  if rows.isEmpty then return {}
  let batch ← relay.publisher.process rows
  let report ← recordDelivered batch.delivered { claimed := rows.length }
  relay.recordAllFailed batch.failed report

def tick (relay : Relay) : Program.Interruptible Report := do relay.tickAt (← Program.now)

/-! ### Ticks in a row -/

/-- The message of a fault that ends a tick. -/
def faultMessage (fault : StoreFault) : String := "Outbox store error: " ++ fault.message

/-- Seconds for `ms` milliseconds. -/
def secondsOf (ms : Nat) : Float := ms.toFloat / 1000

/-- Asks for the rows in each state; a fault leaves the numbers as they are. -/
def refreshCounts : Program (Except String Unit) := do
  match ← (Program.ask .counts).run with
  | .ok counts => do
    Program.note (.rows counts)
    return .ok ()
  | .error (.fault _) => return .ok ()
  | .error (.crash text) => return .error text

/-- Runs one tick and counts it. A fault of the store ends the tick and is counted, so that the relay goes
on; a crash goes up to the caller. -/
def runTick (relay : Relay) (stats : Stats) : Program (Except String (Option Report) × Stats) := do
  let start ← Program.elapsed
  let stats := { stats with ticks := stats.ticks + 1 }
  match ← relay.tick.run with
  | .error (.crash text) => return (.error text, stats)
  | .ok report => do
    Program.note (.outcomes report.claimed report.published report.deadLettered)
    Program.note (.tick report.outcome (secondsOf ((← Program.elapsed) - start)))
    return ((← refreshCounts).map fun _ => some report, stats.add report)
  | .error (.fault _) => do
    Program.note .tickError
    return ((← refreshCounts).map fun _ => none, { stats with failedTicks := stats.failedTicks + 1 })

end Relay

end Outbox
