import Outbox.Postgres.ClaimedRow
import Outbox.Postgres.Statement
import Outbox.Store.Table

/-! What the texts of the statements say of rows: with what columns the table is made, what an insertion stores in them
and what a claim changes. An inserted row that is claimed comes back as the record of the event's row. -/

namespace Outbox.Postgres

/-! ### Columns of the table -/

/-- A column as it is declared. -/
structure Declaration where
  name : String
  type : ColumnType
  /-- What else is said of the column. -/
  rest : String := ""

/-- The names of types in declarations. -/
def ColumnType.keyword : ColumnType → String
  | int8 => "BIGINT"
  | int4 => "INTEGER"
  | text => "TEXT"
  | varchar => "VARCHAR"
  | bytea => "BYTEA"
  | timestamp => "TIMESTAMPTZ"
  | uuid => "UUID"
  | jsonb => "JSONB"

namespace Declaration

def sql (d : Declaration) : String := d.name ++ " " ++ d.type.keyword ++ d.rest

def all : List Declaration := [
  ⟨"event_id", .int8, " PRIMARY KEY"⟩,
  ⟨"event_version", .int4, " NOT NULL DEFAULT 1"⟩,
  ⟨"aggregate_type", .text, " NOT NULL"⟩,
  ⟨"aggregate_id", .text, " NOT NULL"⟩,
  ⟨"event_type", .text, " NOT NULL"⟩,
  ⟨"payload", .bytea, " NOT NULL"⟩,
  ⟨"headers", .jsonb, " NOT NULL DEFAULT '\x7b\x7d'::jsonb"⟩,
  ⟨"status", .text, " NOT NULL DEFAULT 'PENDING' CHECK (" ++ (Condition.statusIn Status.all).text ++ ")"⟩,
  ⟨"attempt_count", .int4, " NOT NULL DEFAULT 0"⟩,
  ⟨"last_error", .text, ""⟩,
  ⟨"created_at", .timestamp, " NOT NULL DEFAULT NOW()"⟩,
  ⟨"updated_at", .timestamp, " NOT NULL DEFAULT NOW()"⟩,
  ⟨"next_retry_at", .timestamp, " NOT NULL DEFAULT NOW()"⟩,
  ⟨"claimed_by", .uuid, ""⟩]

theorem createTableText_eq : Statement.createTableText =
    "CREATE TABLE IF NOT EXISTS outbox_events ( " ++ Statement.commas (all.map sql) ++ " )" := by
  decide +kernel

end Declaration

/-! ### Values -/

/-- What a statement stores in a column. -/
inductive Term
  /-- A bound parameter; they are numbered from 1. -/
  | parameter (n : Nat)
  | text (s : String)
  | number (n : Nat)
  /-- One more than what the column holds. -/
  | next (column : String)

/-- A row of the table: what its columns hold, none for NULL. -/
abbrev Tuple := List (String × Option Parameter)

namespace Term

def sql : Term → String
  | parameter n => "$" ++ Nat.repr n
  | text s => "'" ++ s ++ "'"
  | number n => Nat.repr n
  | next column => "e." ++ column ++ " + 1"

def value? (ps : List Parameter) (tuple : Tuple) : Term → Option Parameter
  | parameter n => ps[n - 1]?
  | text s => some (.text s)
  | number n => some (.integer n)
  | next column =>
    match tuple.lookup column with
    | some (some (.integer n)) => some (.integer (n + 1))
    | _ => none

end Term

namespace Statement

/-- What an insertion stores, and under which columns. -/
def insertion : List (String × Term) := [
  ("event_id", .parameter 1), ("event_version", .parameter 2), ("aggregate_type", .parameter 3),
  ("aggregate_id", .parameter 4), ("event_type", .parameter 5), ("payload", .parameter 6), ("headers", .parameter 7),
  ("status", .text "PENDING"), ("attempt_count", .number 0), ("created_at", .parameter 8), ("updated_at", .parameter 8),
  ("next_retry_at", .parameter 8)]

theorem insertText_eq : insertText = "INSERT INTO outbox_events ( " ++ commas (insertion.map Prod.fst) ++
    " ) VALUES (" ++ commas (insertion.map (·.2.sql)) ++ ") ON CONFLICT (event_id) DO NOTHING" := by
  decide +kernel

/-- What a claim changes. -/
def claimChanges : List (String × Term) := [
  ("status", .text "SENDING"), ("attempt_count", .next "attempt_count"), ("updated_at", .parameter 1),
  ("claimed_by", .parameter 6)]

theorem claimText_eq : claimText = "WITH claimable AS ( SELECT event_id FROM outbox_events WHERE " ++
    Condition.claimable.text ++
    " ORDER BY created_at ASC LIMIT $5 FOR UPDATE SKIP LOCKED ) UPDATE outbox_events AS e SET " ++
    commas (claimChanges.map fun change => change.1 ++ " = " ++ change.2.sql) ++
    " FROM claimable WHERE e.event_id = claimable.event_id RETURNING " ++ commas (claimedColumns.map ("e." ++ ·)) := by
  decide +kernel

end Statement

/-! ### Rows -/

namespace Tuple

/-- The row that an insertion stores under its parameters. The columns that it does not name have no default, so they
are NULL. -/
def inserted (ps : List Parameter) : Tuple :=
  Declaration.all.map fun d => (d.name, (Statement.insertion.lookup d.name).bind (·.value? ps []))

/-- The row after some of its columns were changed. -/
def changed (tuple : Tuple) (ps : List Parameter) (changes : List (String × Term)) : Tuple :=
  tuple.map fun (column, held) =>
    match changes.lookup column with
    | some term => (column, term.value? ps tuple)
    | none => (column, held)

end Tuple

/-- The content of a cell. The server writes a document as it likes. -/
def Parameter.content (document : Json.Value → Bytes) : Parameter → Content
  | integer n | time n => .integer n
  | text s => .bytes (Utf8.ofString s)
  | bytes b => .bytes b
  | json v => .bytes (document v)
  | token t => .token t
  | integers _ => .bytes []

/-- The record that a claim returns of a row. -/
def Tuple.returned (document : Json.Value → Bytes) (tuple : Tuple) : Record :=
  Statement.claimedColumns.filterMap fun name =>
    (Declaration.all.find? (·.name == name)).map fun d =>
      (name, ⟨d.type, (tuple.lookup name).join.map (·.content document)⟩)

/-- The row of an event that waits: its fields, and its time of creation for all times. -/
def Tuple.pending (e : Event) : Tuple := [
  ("event_id", some (.integer e.id)), ("event_version", some (.integer e.version)),
  ("aggregate_type", some (.text e.aggregateType)), ("aggregate_id", some (.text e.aggregateId)),
  ("event_type", some (.text e.kind)), ("payload", some (.bytes e.payload)),
  ("headers", some (.json (headersValue e.headers))), ("status", some (.text "PENDING")),
  ("attempt_count", some (.integer 0)), ("last_error", none), ("created_at", some (.ofInstant e.createdAt)),
  ("updated_at", some (.ofInstant e.createdAt)), ("next_retry_at", some (.ofInstant e.createdAt)), ("claimed_by", none)]

theorem inserted_insert (e : Event) : Tuple.inserted (Statement.insert e).parameters = .pending e := rfl

/-- The statement inserts the row: the table is made with all columns of the row, the text of the statement says what is
stored in which of them, and under its parameters that is the row. -/
structure Statement.Inserts (statement : Statement) (tuple : Tuple) : Prop where
  table : createTable.text = "CREATE TABLE IF NOT EXISTS outbox_events ( " ++
    commas (Declaration.all.map Declaration.sql) ++ " )"
  text : statement.text = "INSERT INTO outbox_events ( " ++ commas (insertion.map Prod.fst) ++ " ) VALUES (" ++
    commas (insertion.map (·.2.sql)) ++ ") ON CONFLICT (event_id) DO NOTHING"
  stored : Tuple.inserted statement.parameters = tuple

theorem inserts_insert (e : Event) : (Statement.insert e).Inserts (.pending e) :=
  ⟨Declaration.createTableText_eq, Statement.insertText_eq, inserted_insert e⟩

theorem returned_claimed (document : Json.Value → Bytes) (e : Event) (p : Partition) (limit : Nat) (now : Instant)
    (stuck : Span) (token : Token) :
    ((Tuple.pending e).changed (Statement.claim p limit now stuck token).parameters
      Statement.claimChanges).returned document =
      .ofRow ((Row.pending e).claimed token now) (document (headersValue e.headers)) :=
  rfl

end Outbox.Postgres
