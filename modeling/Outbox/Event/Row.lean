import Outbox.Time.Instant
import Outbox.Bytes.Utf8
import Outbox.Event.Status
/-! Events as the application writes them, and the rows that hold them with the state of their delivery. -/

namespace Outbox

/-- Text under names; in the order of the names, each of which occurs once. -/
abbrev Headers := List (String × String)

/-- Something that happened to an aggregate. -/
structure Event where
  id : Int
  version : Int := 1
  aggregateType : String
  aggregateId : String
  kind : String
  payload : Bytes
  headers : Headers := []
  createdAt : Instant
deriving DecidableEq, Inhabited

/-- A text with a name added to it or replaced. -/
def Event.withHeader (e : Event) (name text : String) : Event :=
  { e with headers := Json.sortEntries (e.headers ++ [(name, text)]) }

/-- A name for whoever claims rows; one per store. -/
structure Token where
  number : Nat
deriving DecidableEq, Repr, Inhabited

/-- A stored event. -/
structure Row where
  event : Event
  status : Status := .pending
  /-- How often the row was claimed. Fewer than `2 ^ 31` claims of a row are assumed, where a count of 32 bits would
  overflow. -/
  attempt : Int := 0
  lastError : Option String := none
  updatedAt : Instant
  nextRetryAt : Instant
  claimedBy : Option Token := none
deriving DecidableEq, Inhabited

namespace Row

def id (r : Row) : Int := r.event.id

/-- The row of an event that was just saved. -/
def pending (e : Event) : Row := { event := e, updatedAt := e.createdAt, nextRetryAt := e.createdAt }

/-- Whether the row may be claimed: it is due, or its owner has been silent for longer than `stuck`.
There is no answer where an owner's silence has to be judged and `now` less `stuck` is no date. -/
def isClaimable? (r : Row) (now : Instant) (stuck : Span) : Option Bool :=
  match r.status with
  | .pending | .failed => some (decide (r.nextRetryAt ≤ now))
  | .sending => (now.minus? stuck).map fun limit => decide (r.updatedAt < limit)
  | .published | .deadLettered => some false

/-- The message of a date that is none. -/
def dateOverflow : String := "`DateTime - TimeDelta` overflowed"

/-- Earlier events come first, and of two of one time the one of the smaller id. -/
def precedes (a b : Row) : Bool :=
  decide (a.event.createdAt < b.event.createdAt) ||
    (decide (a.event.createdAt = b.event.createdAt) && decide (a.id ≤ b.id))

end Row

end Outbox
