import Outbox.Envelope.Message
import Outbox.Relay.Failure
import Outbox.Relay.Program
/-! Giving up a failed row: a dead letter is published, and only then is the row marked dead. If the dead
letter cannot be published the row is kept for another attempt, so that nothing is lost. -/

namespace Outbox.Relay

/-- Where dead letters go. -/
structure Graveyard where
  topic : String := "outbox.dead-letter"
  /-- The time limit of their delivery. -/
  limit : Span
deriving DecidableEq, Repr, Inhabited

inductive Burial
  | deadLettered
  | rescheduled
  /-- The row is not being sent any more: another relay has it. -/
  | skipped
deriving DecidableEq, Repr, Inhabited

namespace Graveyard

/-- The text of a delivery that did not succeed; a crash is not caught here. -/
def problem (g : Graveyard) : Delivery → Except Interrupt (Option String)
  | .delivered => .ok none
  | .refused refusal => .ok (some refusal.message)
  | .timedOut => .ok (some ("dead-letter publish timed out after " ++ g.limit.describe))
  | .crashed text => .error (.crash text)

/-- The cause that is kept with a row whose dead letter was not published. -/
def doubleCause (cause problem : String) : String := cause ++ " (dead-letter publish failed: " ++ problem ++ ")"

def letter (g : Graveyard) (failed : FailedRow) (now : Instant) : Parcel :=
  ⟨g.topic, Decimal.integerText failed.row.id, (DeadLetter.ofRow failed.row failed.failure.message now).text⟩

/-- Gives up a row. `delay` counts from the moment at which its dead letter is found not published. -/
def bury (g : Graveyard) (failed : FailedRow) (delay : Span) : Program.Interruptible Burial := do
  let deliveries ← Program.deliver false g.limit [g.letter failed (← Program.now)]
  let cause := failed.failure.message
  match ← (g.problem (deliveries.headD .timedOut) : Except Interrupt (Option String)) with
  | none =>
    let marked ← Program.ask (.markDead failed.row.id cause (← Program.now))
    return if marked then .deadLettered else .skipped
  | some problem =>
    let marked ← Program.ask (.markFailed failed.row.id (doubleCause cause problem) delay (← Program.now))
    return if marked then .rescheduled else .skipped

end Graveyard

end Outbox.Relay
