import Outbox.Envelope.Message
import Outbox.Event.Partition
import Outbox.Postgres.Condition
import Outbox.Store.Cause
/-! The statements that are sent to the server, with what is bound to them. -/

namespace Outbox.Postgres

/-- What begins and ends a transaction. -/
inductive Control
  | start
  | commit
  | rollback
deriving DecidableEq, Repr, Inhabited

inductive Statement
  | createTable
  | createIndex
  | control (c : Control)
  | insert (event : Event)
  | claim (partition : Partition) (limit : Nat) (now : Instant) (stuck : Span) (token : Token)
  | markPublished (ids : List Int) (now : Instant)
  | markFailed (id : Int) (cause : String) (delay : Span) (now : Instant)
  | markDead (id : Int) (cause : String) (now : Instant)
  | counts
deriving DecidableEq, Inhabited

def Control.text : Control → String
  | start => "BEGIN"
  | commit => "COMMIT"
  | rollback => "ROLLBACK"

namespace Statement

/-- The columns of the table in the order in which a claim returns them. -/
def claimedColumns : List String := ["event_id", "event_version", "aggregate_type", "aggregate_id",
  "event_type", "payload", "headers", "attempt_count", "last_error", "created_at", "updated_at",
  "next_retry_at", "claimed_by"]

def commas (words : List String) : String := ", ".intercalate words

def createTableText : String :=
  "CREATE TABLE IF NOT EXISTS outbox_events ( event_id BIGINT PRIMARY KEY, " ++
  "event_version INTEGER NOT NULL DEFAULT 1, aggregate_type TEXT NOT NULL, aggregate_id TEXT NOT NULL, " ++
  "event_type TEXT NOT NULL, payload BYTEA NOT NULL, headers JSONB NOT NULL DEFAULT '\x7b\x7d'::jsonb, " ++
  "status TEXT NOT NULL DEFAULT 'PENDING' CHECK (" ++ (Condition.statusIn Status.all).text ++ "), " ++
  "attempt_count INTEGER NOT NULL DEFAULT 0, last_error TEXT, created_at TIMESTAMPTZ NOT NULL DEFAULT NOW(), " ++
  "updated_at TIMESTAMPTZ NOT NULL DEFAULT NOW(), next_retry_at TIMESTAMPTZ NOT NULL DEFAULT NOW(), " ++
  "claimed_by UUID )"

def createIndexText : String :=
  "CREATE INDEX IF NOT EXISTS idx_outbox_events_claim ON outbox_events (status, next_retry_at, created_at) " ++
  "WHERE " ++ Condition.isOpen.text

def insertText : String :=
  "INSERT INTO outbox_events ( event_id, event_version, aggregate_type, aggregate_id, event_type, payload, " ++
  "headers, status, attempt_count, created_at, updated_at, next_retry_at ) " ++
  "VALUES ($1, $2, $3, $4, $5, $6, $7, 'PENDING', 0, $8, $8, $8) ON CONFLICT (event_id) DO NOTHING"

/-- Takes the oldest claimable rows that no other transaction holds. -/
def claimText : String :=
  "WITH claimable AS ( SELECT event_id FROM outbox_events WHERE " ++ Condition.claimable.text ++
  " ORDER BY created_at ASC LIMIT $5 FOR UPDATE SKIP LOCKED ) " ++
  "UPDATE outbox_events AS e SET status = 'SENDING', attempt_count = e.attempt_count + 1, updated_at = $1, " ++
  "claimed_by = $6 FROM claimable WHERE e.event_id = claimable.event_id RETURNING " ++
  commas (claimedColumns.map ("e." ++ ·))

def updateText (changes : String) (condition : Condition) : String :=
  "UPDATE outbox_events SET " ++ changes ++ " WHERE " ++ condition.text

def text : Statement → String
  | createTable => createTableText
  | createIndex => createIndexText
  | control c => c.text
  | insert _ => insertText
  | claim _ _ _ _ _ => claimText
  | markPublished _ _ =>
    updateText "status = 'PUBLISHED', updated_at = $2, last_error = NULL" Condition.sendingMany
  | markFailed _ _ _ _ =>
    updateText "status = 'FAILED', last_error = $2, updated_at = $3, next_retry_at = $4" Condition.sendingOne
  | markDead _ _ _ =>
    updateText "status = 'DEAD_LETTER', last_error = $2, updated_at = $3" Condition.sendingOne
  | counts => "SELECT status, COUNT(*) FROM outbox_events GROUP BY status"

/-- The largest number of rows that can be asked for. -/
def largestLimit : Nat := (1 <<< 63) - 1

def parameters : Statement → List Parameter
  | createTable | createIndex | control _ | counts => []
  | insert e => [.integer e.id, .integer e.version, .text e.aggregateType, .text e.aggregateId, .text e.kind,
    .bytes e.payload, .json (headersValue e.headers), .ofInstant e.createdAt]
  | claim p limit now stuck token => [.ofInstant now, .ofInstant (now.before stuck), .integer p.total,
    .integer p.index, .integer (min limit largestLimit), .token token]
  | markPublished ids now => [.integers ids, .ofInstant now]
  | markFailed id cause delay now =>
    [.integer id, .text (Cause.truncate cause), .ofInstant now, .ofInstant (now.after delay)]
  | markDead id cause now => [.integer id, .text (Cause.truncate cause), .ofInstant now]

end Statement

end Outbox.Postgres
