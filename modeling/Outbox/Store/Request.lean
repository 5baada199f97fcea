import Outbox.Event.Partition
import Outbox.Event.Row
import Outbox.Store.Fault
/-! What a store of events can be asked for, and what it answers. -/

namespace Outbox

/-- One call of a store. -/
inductive Request
  | save (event : Event)
  /-- Up to `limit` rows of a partition that may be claimed, oldest first. -/
  | claim (partition : Partition) (limit : Nat) (now : Instant) (stuck : Span)
  | markPublished (ids : List Int) (now : Instant)
  /-- The row may be claimed again after a delay. -/
  | markFailed (id : Int) (cause : String) (delay : Span) (now : Instant)
  | markDead (id : Int) (cause : String) (now : Instant)
  | counts
deriving DecidableEq, Inhabited

/-- What comes back: whether the event is new, the claimed rows, how many rows or whether a row was
marked, the number of rows in each state that has any. -/
abbrev Request.Answer : Request → Type
  | .save _ => Bool
  | .claim _ _ _ _ => List Row
  | .markPublished _ _ => Nat
  | .markFailed _ _ _ _ => Bool
  | .markDead _ _ _ => Bool
  | .counts => List (Status × Int)

/-- Why a call has no answer. -/
inductive Interrupt
  | fault (fault : StoreFault)
  /-- The caller itself breaks down. -/
  | crash (text : String)
deriving DecidableEq, Repr, Inhabited

/-- A store whose contents have type `σ`. -/
structure Store (σ : Type) where
  answer : (r : Request) → σ → Except Interrupt r.Answer × σ

end Outbox
