import Outbox.Json.Reader
import Outbox.Postgres.Parameter
import Outbox.Store.Request
/-! The cells of a result and reading them. A column that is there must be of a type that can be read as what
is wanted, and its cell must hold it. -/

namespace Outbox.Postgres

/-- The type that a column is declared with. -/
inductive ColumnType
  | int8
  | int4
  | text
  | varchar
  | bytea
  | timestamp
  | uuid
  | jsonb
deriving DecidableEq, Repr, Inhabited

def ColumnType.name : ColumnType → String
  | int8 => "INT8"
  | int4 => "INT4"
  | text => "TEXT"
  | varchar => "VARCHAR"
  | bytea => "BYTEA"
  | timestamp => "TIMESTAMPTZ"
  | uuid => "UUID"
  | jsonb => "JSONB"

/-- The type that the server knows by a number. -/
def ColumnType.ofNumber? (n : Int) : Option ColumnType :=
  [(17, bytea), (20, int8), (23, int4), (25, text), (1043, varchar), (1184, timestamp), (2950, uuid),
    (3802, jsonb)].lookup n

/-- What a cell holds. -/
inductive Content
  /-- An integer, or a point in time on the server's count. -/
  | integer (n : Int)
  /-- Bytes, or text of any kind. -/
  | bytes (b : Bytes)
  | token (t : Token)
deriving DecidableEq, Repr, Inhabited

/-- The number that bytes write, the first of them the highest. -/
def bigEndian (b : Bytes) : Nat := b.foldl (fun n x => n * 256 + x.toNat) 0

/-- The content of a type in the form that the server sends: integers in two's complement, and a document
after the number of its form. -/
def Content.ofBinary (b : Bytes) : ColumnType → Content
  | .int8 | .int4 | .timestamp => .integer (Int.bmod (bigEndian b) (1 <<< (8 * b.length)))
  | .uuid => .token ⟨bigEndian b⟩
  | .jsonb => .bytes (b.drop 1)
  | .text | .varchar | .bytea => .bytes b

/-- A cell; one without content is NULL. -/
structure Cell where
  type : ColumnType
  content : Option Content
deriving DecidableEq, Repr, Inhabited

/-- A row of a result, by the names of its columns. -/
abbrev Record := List (String × Cell)

/-! ### Reading -/

/-- Why a content is not what is wanted. -/
inductive Unreadable
  | because (text : String)
  | crash (text : String)
deriving DecidableEq, Repr, Inhabited

/-- A way to read contents. -/
structure Reading (α : Type) where
  /-- What is read, in messages. -/
  name : String
  /-- The type of column that it is read from. -/
  type : ColumnType
  /-- The other types that will do. -/
  alike : List ColumnType := []
  read : Content → Except Unreadable α

namespace Reading

def otherContent {α : Type} : Except Unreadable α := .error (.because "the content is not of the column's type")

def int8 : Reading Int where
  name := "i64"
  type := .int8
  read
    | .integer n => .ok n
    | _ => otherContent

def int4 : Reading Int where
  name := "i32"
  type := .int4
  read
    | .integer n =>
      if -2147483648 ≤ n ∧ n ≤ 2147483647 then .ok n
      else .error (.because "out of range integral type conversion attempted")
    | _ => otherContent

def text : Reading String where
  name := "alloc::string::String"
  type := .text
  alike := [.varchar]
  read
    | .bytes b => (Utf8.decode b).mapError fun e => .because e.message
    | _ => otherContent

def bytes : Reading Bytes where
  name := "alloc::vec::Vec<u8>"
  type := .bytea
  read
    | .bytes b => .ok b
    | _ => otherContent

def json : Reading Json.Value where
  name := "sqlx_core::types::json::Json<serde_json::value::Value>"
  type := .jsonb
  read
    | .bytes b => (Json.parse b).mapError fun e => .because e.message
    | _ => otherContent

def instant : Reading Instant where
  name := "chrono::datetime::DateTime<chrono::offset::utc::Utc>"
  type := .timestamp
  read
    | .integer n =>
      match ofServerTime? n with
      | some i => .ok i
      | none => .error (.crash "`NaiveDateTime + TimeDelta` overflowed")
    | _ => otherContent

def token : Reading Token where
  name := "uuid::Uuid"
  type := .uuid
  read
    | .token t => .ok t
    | _ => otherContent

/-- The same where NULL will do as well. -/
def optional {α : Type} (r : Reading α) : Reading α := { r with name := "core::option::Option<" ++ r.name ++ ">" }

def mismatch {α : Type} (r : Reading α) (t : ColumnType) : String :=
  "mismatched types; Rust type `" ++ r.name ++ "` (as SQL type `" ++ r.type.name ++
    "`) is not compatible with SQL type `" ++ t.name ++ "`"

end Reading

def missingContent : String := "unexpected null; try decoding as an `Option`"

/-- Says of a content that it cannot be read, and in which column, named as it is shown. -/
def Unreadable.interrupt (column : String) : Unreadable → Interrupt
  | because text => .fault (.database (.undecodable column text))
  | crash text => .crash text

namespace Cell

/-- Reads a cell of a column that is shown by a name; none for NULL. -/
def read? {α : Type} (c : Cell) (column : String) (r : Reading α) : Except Interrupt (Option α) :=
  match c.content with
  | none => .ok none
  | some content =>
    if c.type = r.type ∨ c.type ∈ r.alike then
      ((r.read content).mapError (Unreadable.interrupt column)).map some
    else .error (Unreadable.interrupt column (.because (r.mismatch c.type)))

/-- Reads a cell that must not be NULL. -/
def read {α : Type} (c : Cell) (column : String) (r : Reading α) : Except Interrupt α := do
  match ← c.read? column r with
  | some a => return a
  | none => throw (Unreadable.interrupt column (.because missingContent))

end Cell

namespace Record

def cell (row : Record) (name : String) : Except Interrupt Cell :=
  match row.lookup name with
  | some c => .ok c
  | none => .error (.fault (.database (.columnNotFound name)))

def shownName (name : String) : String := "\"" ++ name ++ "\""

def get {α : Type} (row : Record) (name : String) (r : Reading α) : Except Interrupt α := do
  (← row.cell name).read (shownName name) r

def get? {α : Type} (row : Record) (name : String) (r : Reading α) : Except Interrupt (Option α) := do
  (← row.cell name).read? (shownName name) r.optional

end Record

end Outbox.Postgres
