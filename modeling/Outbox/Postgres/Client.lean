import Outbox.Postgres.ClaimedRow
import Outbox.Postgres.Session
/-! A store in a database. A claim is committed before its rows are read, and a row that cannot be read is
given up on its own, so that it neither holds back the others nor comes back for ever. -/

namespace Outbox.Postgres

/-- What a client works on: its session, and the name under which it claims rows. -/
structure Client where
  session : Session
  token : Token := ⟨1⟩
deriving Inhabited

namespace Client

def fault {α : Type} (e : DatabaseFault) : Except Interrupt α := .error (.fault (.database e))

def lift {α : Type} (result : Except DatabaseFault α) : Except Interrupt α :=
  result.mapError fun e => .fault (.database e)

/-- Sends a statement. -/
def execute (c : Client) (statement : Statement) : Except Interrupt Result × Client :=
  let (result, session) := c.session.execute statement
  (lift result, { c with session := session })

/-- Makes the table and its index where there are none. -/
def ensureSchema (c : Client) : Except Interrupt Unit × Client :=
  match c.execute .createTable with
  | (.error e, c) => (.error e, c)
  | (.ok _, c) =>
    let (result, c) := c.execute .createIndex
    (result.map fun _ => (), c)

/-- The statements sent so far. -/
def statements (c : Client) : List Statement := c.session.sent.reverse

/-! ### Saving -/

/-- Saves events in one transaction that ends as `last` says; which of them are new. -/
def saveTogether (c : Client) (events : List Event) (last : Control) : Except Interrupt (List Bool) × Client :=
  let (results, session) := c.session.transaction (events.map .insert) last
  (lift (results.map fun rs => rs.map fun r => r.affected == 1), { c with session := session })

/-- Saves an event in a transaction of its own; whether it is new. -/
def save (c : Client) (event : Event) : Except Interrupt Bool × Client :=
  let (results, c) := c.saveTogether [event] .commit
  (results.map fun saved => saved == [true], c)

/-! ### Marks -/

/-- Sends an update of one row; whether it changed one. -/
def update (c : Client) (statement : Statement) : Except Interrupt Bool × Client :=
  let (result, c) := c.execute statement
  (result.map fun r => r.affected == 1, c)

def markPublished (c : Client) (ids : List Int) (now : Instant) : Except Interrupt Nat × Client :=
  if ids.isEmpty then (.ok 0, c)
  else
    let (result, c) := c.execute (.markPublished ids now)
    (result.map (·.affected), c)

/-! ### Claims -/

/-- Reads claimed rows, and gives up those that cannot be read. A row that crashes its reader is not given up: the crash
goes up to the caller. -/
def readClaimed (now : Instant) (c : Client) : List Record → Except Interrupt (List Row) × Client
  | [] => (.ok [], c)
  | record :: rest =>
    match record.claimedRow with
    | .ok row =>
      let (rows, c) := c.readClaimed now rest
      (rows.map (row :: ·), c)
    | .error (.fault (.database e)) =>
      match record.get "event_id" .int8 with
      | .error interrupt => (.error interrupt, c)
      | .ok id =>
        match c.update (.markDead id (undecodable e) now) with
        | (.error interrupt, c) => (.error interrupt, c)
        | (.ok _, c) => c.readClaimed now rest
    | .error interrupt => (.error interrupt, c)

/-- Claims rows, oldest first. -/
def claim (c : Client) (p : Partition) (limit : Nat) (now : Instant) (stuck : Span) :
    Except Interrupt (List Row) × Client :=
  if limit = 0 then (.ok [], c)
  else match c.execute (.claim p limit now stuck c.token) with
    | (.error e, c) => (.error e, c)
    | (.ok result, c) =>
      let (rows, c) := c.readClaimed now result.records
      (rows.map fun rows => rows.mergeSort Row.precedes, c)

/-! ### Counts -/

/-- The counts by state; of two for one state the later holds. -/
def collectCounts (counts : List (Status × Int)) : List (Status × Int) :=
  Status.all.filterMap fun s => (counts.reverse.lookup s).map fun n => (s, n)

def counts (c : Client) : Except Interrupt (List (Status × Int)) × Client :=
  let (result, c) := c.execute .counts
  let counts := do return collectCounts ((← (← result).records.mapM Record.count).filterMap id)
  (counts, c)

/-! ### The client as a store -/

def answer : (r : Request) → Client → Except Interrupt r.Answer × Client
  | .save e, c => c.save e
  | .claim p limit now stuck, c => c.claim p limit now stuck
  | .markPublished ids now, c => c.markPublished ids now
  | .markFailed id cause delay now, c => c.update (.markFailed id cause delay now)
  | .markDead id cause now, c => c.update (.markDead id cause now)
  | .counts, c => c.counts

def store : Store Client := ⟨answer⟩

end Client

end Outbox.Postgres
