import Outbox.Json.Writer
import Outbox.Postgres.Cell
/-! The rows that a claim returns. -/

namespace Outbox.Postgres

/-! ### Writing -/

def timeCell (i : Instant) : Cell := ⟨.timestamp, some (.integer (serverTime i))⟩

def textCell (s : String) : Cell := ⟨.text, some (.bytes (Utf8.ofString s))⟩

/-- The record of a row whose headers are given as JSON text. -/
def Record.ofRow (r : Row) (headers : Bytes) : Record := [
  ("event_id", ⟨.int8, some (.integer r.id)⟩),
  ("event_version", ⟨.int4, some (.integer r.event.version)⟩),
  ("aggregate_type", textCell r.event.aggregateType),
  ("aggregate_id", textCell r.event.aggregateId),
  ("event_type", textCell r.event.kind),
  ("payload", ⟨.bytea, some (.bytes r.event.payload)⟩),
  ("headers", ⟨.jsonb, some (.bytes headers)⟩),
  ("attempt_count", ⟨.int4, some (.integer r.attempt)⟩),
  ("last_error", ⟨.text, r.lastError.map fun s => .bytes (Utf8.ofString s)⟩),
  ("created_at", timeCell r.event.createdAt),
  ("updated_at", timeCell r.updatedAt),
  ("next_retry_at", timeCell r.nextRetryAt),
  ("claimed_by", ⟨.uuid, r.claimedBy.map .token⟩)]

def Record.ofCount (name : Bytes) (n : Int) : Record :=
  [("status", ⟨.text, some (.bytes name)⟩), ("count", ⟨.int8, some (.integer n)⟩)]

/-- The same where the server declares some columns otherwise, or does not have them. -/
def Record.redeclared (row : Record) (columns : List (String × Option ColumnType)) : Record :=
  row.filterMap fun (name, cell) =>
    match columns.lookup name with
    | some type => type.map fun t => (name, { cell with type := t })
    | none => some (name, cell)

/-- The same with other contents in some cells, in the form that the server sends. -/
def Record.withBinary (row : Record) (contents : List (String × Option Bytes)) : Record :=
  row.map fun (name, cell) =>
    match contents.lookup name with
    | some b => (name, { cell with content := b.map fun b => .ofBinary b cell.type })
    | none => (name, cell)

/-! ### Reading -/

/-- Headers from JSON that any producer may have written: those that are not text are kept as their JSON,
and anything but an object has none. -/
def headersOfJson : Json.Value → Headers
  | .object members => members.map fun
    | (name, .string s) => (name, s)
    | (name, v) => (name, v.write)
  | _ => []

/-- Reads a claimed row column by column. -/
def Record.claimedRow (row : Record) : Except Interrupt Row := do
  let id ← row.get "event_id" .int8
  let version ← row.get "event_version" .int4
  let aggregateType ← row.get "aggregate_type" .text
  let aggregateId ← row.get "aggregate_id" .text
  let kind ← row.get "event_type" .text
  let payload ← row.get "payload" .bytes
  let headers ← row.get "headers" .json
  let attempt ← row.get "attempt_count" .int4
  let lastError ← row.get? "last_error" .text
  let createdAt ← row.get "created_at" .instant
  let updatedAt ← row.get "updated_at" .instant
  let nextRetryAt ← row.get "next_retry_at" .instant
  let claimedBy ← row.get? "claimed_by" .token
  return {
    event := {
      id := id, version := version, aggregateType := aggregateType, aggregateId := aggregateId, kind := kind
      payload := payload, headers := headersOfJson headers, createdAt := createdAt }
    status := .sending, attempt := attempt, lastError := lastError, updatedAt := updatedAt
    nextRetryAt := nextRetryAt, claimedBy := claimedBy }

/-- What is kept with a row that cannot be read. -/
def undecodable (fault : DatabaseFault) : String := "undecodable outbox row: " ++ fault.message

/-- Reads the columns of a count by their positions; the number of rows in a state, if there is such a
state. -/
def Record.count (row : Record) : Except Interrupt (Option (Status × Int)) := do
  let name ← (← row.cell "status").read "0" .text
  let n ← (← row.cell "count").read "1" .int8
  return (Status.ofName? name).map fun s => (s, n)

end Outbox.Postgres
