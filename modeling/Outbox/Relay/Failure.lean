import Outbox.Broker.Refusal
import Outbox.Event.Row
import Outbox.Retry.Policy
/-! Why an event was not delivered, and what becomes of it. -/

namespace Outbox.Relay

inductive Failure
  /-- The payload is not JSON. -/
  | unreadable (text : String)
  | noDestination (text : String)
  | timedOut (limit : Span)
  | refused (refusal : Broker.Refusal)
  /-- The delivery broke down. -/
  | broken (text : String)
deriving DecidableEq, Repr, Inhabited

namespace Failure

def message : Failure → String
  | unreadable text => "Serialization failed: " ++ text
  | noDestination text => "Invalid destination: " ++ text
  | timedOut limit => "Publish timed out after " ++ limit.describe
  | refused refusal => refusal.message
  | broken text => "Publish task failed: " ++ text

/-- Whether the next attempt may succeed. -/
def isTransient : Failure → Bool
  | unreadable _ | noDestination _ => false
  | timedOut _ | broken _ => true
  | refused refusal => refusal.isTransient

/-- The failure that a broker's refusal amounts to. -/
def ofRefusal : Broker.Refusal → Failure
  | .invalidDestination topic reason => noDestination (topic ++ ": " ++ reason)
  | refusal => refused refusal

end Failure

/-- A row whose event was not delivered. -/
structure FailedRow where
  row : Row
  failure : Failure
  retryable : Bool
deriving DecidableEq, Inhabited

/-- What becomes of a failed row after the attempt that it counts. -/
def FailedRow.disposition (f : FailedRow) (p : Retry.Policy) : Retry.Disposition :=
  p.disposition f.retryable f.row.attempt

end Outbox.Relay
