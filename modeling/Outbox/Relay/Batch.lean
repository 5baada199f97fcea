import Outbox.Envelope.Message
import Outbox.Envelope.Topic
import Outbox.Relay.Failure
import Outbox.Relay.Program
import Outbox.Text.Quoted
/-! Delivering a batch of rows in chunks. The messages of a chunk are delivered side by side and the next
chunk starts when all of them are through. A row whose message or topic cannot be made takes no part in
the delivery of its chunk. -/

namespace Outbox.Relay

/-- How events are published. -/
structure Publisher where
  /-- What is put before the aggregate type in a topic. -/
  topicLead : String := "outbox"
  /-- The most messages on their way at once. -/
  chunk : Nat
  /-- The time limit of each. -/
  limit : Span
  /-- Whether durations are counted. -/
  measured : Bool := false
deriving DecidableEq, Repr, Inhabited

/-- The outcome of a batch, in the order of its rows. -/
structure Batch where
  delivered : List Int := []
  failed : List FailedRow := []
deriving DecidableEq, Inhabited

/-- Groups of `size` in order, the last one maybe smaller. A size of zero counts as one. -/
def chunks {α : Type} (size : Nat) : List α → List (List α)
  | [] => []
  | x :: rest => (x :: rest).take (max size 1) :: chunks size ((x :: rest).drop (max size 1))
termination_by xs => xs.length
decreasing_by simp only [List.length_drop, List.length_cons]; omega

theorem flatten_chunks {α : Type} (size : Nat) (xs : List α) : (chunks size xs).flatten = xs := by
  fun_induction chunks size xs with
  | case1 => rfl
  | case2 x rest ih => rw [List.flatten_cons, ih, List.take_append_drop]

/-- What is said of a delivery that crashed with a text. Deliveries are not told apart by number. -/
def crashReport (text : String) : String := "task N panicked with message " ++ Text.quoted text

namespace Publisher

/-- The message of a row, addressed. -/
def parcel (p : Publisher) (row : Row) : Except Failure Parcel := do
  let message ← (Message.ofRow row).mapError fun e => .unreadable e.message
  let topic ← (Topic.resolve p.topicLead row.event.aggregateType).mapError fun e =>
    .noDestination (e.message row.event.aggregateType)
  return ⟨topic, row.event.aggregateId, message.text⟩

/-- The failure that a delivery amounts to. -/
def failureOf (p : Publisher) : Delivery → Option Failure
  | .delivered => none
  | .refused refusal => some (.ofRefusal refusal)
  | .timedOut => some (.timedOut p.limit)
  | .crashed text => some (.broken (crashReport text))

theorem failureOf_eq_none {p : Publisher} {delivery : Delivery} :
    p.failureOf delivery = none ↔ delivery = .delivered := by
  cases delivery <;> simp [failureOf]

/-- Pairs rows with what became of them: the failure of a row without a parcel, and for the others the
deliveries in order. -/
def outcomes (p : Publisher) : List (Row × Except Failure Parcel) → List Delivery → List (Row × Option Failure)
  | [], _ => []
  | (row, .error failure) :: rest, deliveries => (row, some failure) :: p.outcomes rest deliveries
  | (row, .ok _) :: rest, delivery :: deliveries => (row, p.failureOf delivery) :: p.outcomes rest deliveries
  | (row, .ok _) :: rest, [] => (row, some (.broken "")) :: p.outcomes rest []

def parcelOf? : Row × Except Failure Parcel → Option Parcel
  | (_, .ok parcel) => some parcel
  | (_, .error _) => none

/-- Delivers a chunk. The rows without a parcel are measured too. -/
def publishChunk (p : Publisher) (rows : List Row) : Program (List (Row × Option Failure)) := do
  let addressed := rows.map fun row => (row, p.parcel row)
  let parcels := addressed.filterMap parcelOf?
  if p.measured then
    Program.noteAll (List.replicate (rows.length - parcels.length) (.publish 0))
  let deliveries ← Program.deliver p.measured p.limit parcels
  return p.outcomes addressed deliveries

def publishChunks (p : Publisher) : List (List Row) → Program (List (Row × Option Failure))
  | [] => return []
  | chunk :: rest => do
    let first ← p.publishChunk chunk
    let others ← p.publishChunks rest
    return first ++ others

end Publisher

def deliveredId? : Row × Option Failure → Option Int
  | (row, none) => some row.id
  | (_, some _) => none

def failedRow? : Row × Option Failure → Option FailedRow
  | (_, none) => none
  | (row, some failure) => some ⟨row, failure, failure.isTransient⟩

def Batch.ofOutcomes (outcomes : List (Row × Option Failure)) : Batch :=
  ⟨outcomes.filterMap deliveredId?, outcomes.filterMap failedRow?⟩

/-- Delivers rows chunk by chunk. -/
def Publisher.process (p : Publisher) (rows : List Row) : Program Batch := do
  return .ofOutcomes (← p.publishChunks (chunks p.chunk rows))

end Outbox.Relay
