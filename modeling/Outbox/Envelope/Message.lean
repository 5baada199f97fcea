import Outbox.Event.Row
/-! The messages that leave the outbox: an event with its payload as JSON, and for an event that could not
be delivered a dead letter with the payload as text. -/

namespace Outbox

open Json (Value Item)

def integerRange32 : Json.Kind := .integer (-2147483648) 2147483647

def integerRange64 : Json.Kind := .integer (-9223372036854775808) 9223372036854775807

def headersValue (h : Headers) : Value := .object (h.map fun (name, text) => (name, .string text))

def momentValue (t : Timestamp) : Value := .string t.write

/-! ### Messages -/

/-- What consumers of an event's topic receive. -/
structure Message where
  eventId : Int
  version : Int
  aggregateType : String
  aggregateId : String
  kind : String
  occurredAt : Timestamp
  /-- The attempt of delivery that produced the message; the first is 1. -/
  attempt : Int
  headers : Headers
  payload : Value

namespace Message

/-- The message of a row, if its payload is JSON. -/
def ofRow (r : Row) : Except Json.ReadError Message := do
  let payload ← Json.parse r.event.payload
  return {
    eventId := r.id, version := r.event.version, aggregateType := r.event.aggregateType,
    aggregateId := r.event.aggregateId, kind := r.event.kind, occurredAt := r.event.createdAt,
    attempt := r.attempt, headers := r.event.headers, payload := payload }

/-- The message of a row whose payload holds a value. -/
def ofPayload (r : Row) (payload : Value) : Message where
  eventId := r.id
  version := r.event.version
  aggregateType := r.event.aggregateType
  aggregateId := r.event.aggregateId
  kind := r.event.kind
  occurredAt := r.event.createdAt
  attempt := r.attempt
  headers := r.event.headers
  payload := payload

section

variable {r : Row} {m : Message} {payload : Value}

theorem ofRow_of_parse (h : Json.parse r.event.payload = .ok payload) : ofRow r = .ok (ofPayload r payload) := by
  rw [ofRow, h]
  rfl

theorem ofRow_of_parse_error {e : Json.ReadError} (h : Json.parse r.event.payload = .error e) : ofRow r = .error e := by
  rw [ofRow, h]
  rfl

theorem exists_of_ofRow (h : ofRow r = .ok m) :
    ∃ payload, Json.parse r.event.payload = .ok payload ∧ m = ofPayload r payload := by
  cases hpayload : Json.parse r.event.payload with
  | error e =>
    rw [ofRow_of_parse_error hpayload] at h
    cases h
  | ok payload =>
    rw [ofRow_of_parse hpayload] at h
    cases h
    exact ⟨payload, rfl, rfl⟩

theorem parse_of_ofRow_error {e : Json.ReadError} (h : ofRow r = .error e) : Json.parse r.event.payload = .error e := by
  cases hpayload : Json.parse r.event.payload with
  | error e' =>
    rw [ofRow_of_parse_error hpayload] at h
    cases h
    rfl
  | ok payload =>
    rw [ofRow_of_parse hpayload] at h
    cases h

theorem eventId_of_ofRow (h : ofRow r = .ok m) : m.eventId = r.id := by
  obtain ⟨payload, -, rfl⟩ := exists_of_ofRow h
  rfl

theorem attempt_of_ofRow (h : ofRow r = .ok m) : m.attempt = r.attempt := by
  obtain ⟨payload, -, rfl⟩ := exists_of_ofRow h
  rfl

end

def toJson (m : Message) : Value := .object [
  ("event_id", .number (.integer m.eventId)),
  ("event_version", .number (.integer m.version)),
  ("aggregate_type", .string m.aggregateType),
  ("aggregate_id", .string m.aggregateId),
  ("event_type", .string m.kind),
  ("occurred_at", momentValue m.occurredAt),
  ("attempt", .number (.integer m.attempt)),
  ("headers", headersValue m.headers),
  ("payload", m.payload)]

def text (m : Message) : String := m.toJson.write

def fields : Json.Fields := [
  ("event_id", integerRange64), ("event_version", integerRange32), ("aggregate_type", .text),
  ("aggregate_id", .text), ("event_type", .text), ("occurred_at", .moment), ("attempt", integerRange32),
  ("headers", .textMap), ("payload", .any)]

def ofItems? : List Item → Option Message
  | [.integer eventId, .integer version, .text aggregateType, .text aggregateId, .text kind,
      .moment occurredAt, .integer attempt, .textMap headers, .any payload] =>
    some ⟨eventId, version, aggregateType, aggregateId, kind, occurredAt, attempt, headers, payload⟩
  | _ => none

def parse (text : Bytes) : Except Json.Category Message := do
  let items ← Json.parseRecord fields text
  match ofItems? items with
  | some m => return m
  | none => throw .data

end Message

/-! ### Dead letters -/

/-- What readers of the dead-letter topic receive. -/
structure DeadLetter where
  eventId : Int
  aggregateType : String
  aggregateId : String
  kind : String
  attempt : Int
  /-- Why the event was given up. -/
  cause : String
  createdAt : Timestamp
  deadAt : Timestamp
  headers : Headers
  /-- The payload as text; what is no text in it is replaced. -/
  payload : String

namespace DeadLetter

def ofRow (r : Row) (cause : String) (now : Instant) : DeadLetter where
  eventId := r.id
  aggregateType := r.event.aggregateType
  aggregateId := r.event.aggregateId
  kind := r.event.kind
  attempt := r.attempt
  cause := cause
  createdAt := r.event.createdAt
  deadAt := now
  headers := r.event.headers
  payload := Utf8.decodeLossy r.event.payload

def toJson (d : DeadLetter) : Value := .object [
  ("event_id", .number (.integer d.eventId)),
  ("aggregate_type", .string d.aggregateType),
  ("aggregate_id", .string d.aggregateId),
  ("event_type", .string d.kind),
  ("attempt_count", .number (.integer d.attempt)),
  ("error", .string d.cause),
  ("first_created_at", momentValue d.createdAt),
  ("dead_lettered_at", momentValue d.deadAt),
  ("headers", headersValue d.headers),
  ("raw_payload", .string d.payload)]

def text (d : DeadLetter) : String := d.toJson.write

def fields : Json.Fields := [
  ("event_id", integerRange64), ("aggregate_type", .text), ("aggregate_id", .text), ("event_type", .text),
  ("attempt_count", integerRange32), ("error", .text), ("first_created_at", .moment),
  ("dead_lettered_at", .moment), ("headers", .textMap), ("raw_payload", .text)]

def ofItems? : List Item → Option DeadLetter
  | [.integer eventId, .text aggregateType, .text aggregateId, .text kind, .integer attempt, .text cause,
      .moment createdAt, .moment deadAt, .textMap headers, .text payload] =>
    some ⟨eventId, aggregateType, aggregateId, kind, attempt, cause, createdAt, deadAt, headers, payload⟩
  | _ => none

def parse (text : Bytes) : Except Json.Category DeadLetter := do
  let items ← Json.parseRecord fields text
  match ofItems? items with
  | some d => return d
  | none => throw .data

end DeadLetter

end Outbox
