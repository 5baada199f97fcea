import Outbox.Store.Cause
import Outbox.Store.Request
/-! A store that keeps its rows in memory, in the order of their ids. -/

namespace Outbox

theorem Table.ascending_nil : ([] : List Row).Pairwise (fun a b => a.id < b.id) := .nil

@[ext] structure Table where
  rows : List Row := []
  /-- The name under which the table claims rows. -/
  token : Token := ⟨0⟩
  /-- The ids ascend, so that no two rows share one. -/
  ascending : rows.Pairwise (fun a b => a.id < b.id) := by exact Table.ascending_nil
deriving DecidableEq

namespace Row

/-- The row as its claim leaves it. -/
def claimed (r : Row) (token : Token) (now : Instant) : Row :=
  { r with status := .sending, attempt := r.attempt + 1, updatedAt := now, claimedBy := some token }

def published (r : Row) (now : Instant) : Row :=
  { r with status := .published, updatedAt := now, lastError := none }

def failed (r : Row) (cause : String) (delay : Span) (now : Instant) : Row :=
  { r with
    status := .failed, lastError := some (Cause.truncate cause), updatedAt := now
    nextRetryAt := now.after delay }

def deadLettered (r : Row) (cause : String) (now : Instant) : Row :=
  { r with status := .deadLettered, lastError := some (Cause.truncate cause), updatedAt := now }

@[simp] theorem id_claimed (r : Row) (token : Token) (now : Instant) : (r.claimed token now).id = r.id := rfl

@[simp] theorem id_published (r : Row) (now : Instant) : (r.published now).id = r.id := rfl

@[simp] theorem id_failed (r : Row) (cause : String) (delay : Span) (now : Instant) :
    (r.failed cause delay now).id = r.id := rfl

@[simp] theorem id_deadLettered (r : Row) (cause : String) (now : Instant) :
    (r.deadLettered cause now).id = r.id := rfl

/-- Whether it is the row of an id and is being sent. -/
def isSendingAs (r : Row) (id : Int) : Bool := r.id == id && r.status == .sending

end Row

namespace Table

instance : Inhabited Table := ⟨{}⟩

def find? (t : Table) (id : Int) : Option Row := t.rows.find? fun r => r.id == id

def size (t : Table) : Nat := t.rows.length

/-- Changes rows one by one, but not their ids. -/
def mapRows (t : Table) (f : Row → Row) (keeps : ∀ r, (f r).id = r.id) : Table :=
  { t with
    rows := t.rows.map f
    ascending := List.pairwise_map.2 (t.ascending.imp fun h => by rwa [keeps, keeps]) }

/-- Inserts a row before the first with a larger id. -/
def insertRow (row : Row) : List Row → List Row
  | [] => [row]
  | r :: rest => if row.id < r.id then row :: r :: rest else r :: insertRow row rest

theorem mem_insertRow {row r : Row} {rows : List Row} : r ∈ insertRow row rows ↔ r = row ∨ r ∈ rows := by
  induction rows with
  | nil => simp [insertRow]
  | cons first rest ih =>
    rw [insertRow]
    split
    · simp
    · rw [List.mem_cons, ih, List.mem_cons]
      exact or_left_comm

theorem insertRow_ascending {row : Row} {rows : List Row} (h : rows.Pairwise (fun a b => a.id < b.id))
    (new : ∀ r ∈ rows, r.id ≠ row.id) : (insertRow row rows).Pairwise (fun a b => a.id < b.id) := by
  induction rows with
  | nil => simp [insertRow]
  | cons first rest ih =>
    obtain ⟨hfirst, hrest⟩ := List.pairwise_cons.1 h
    rw [insertRow]
    split
    · next hlt =>
      refine List.pairwise_cons.2 ⟨fun r hr => ?_, h⟩
      rcases List.mem_cons.1 hr with rfl | hr
      · exact hlt
      · exact Int.lt_trans hlt (hfirst r hr)
    · next hge =>
      refine List.pairwise_cons.2 ⟨fun r hr => ?_, ih hrest fun r hr => new r (List.mem_cons_of_mem _ hr)⟩
      rcases mem_insertRow.1 hr with rfl | hr
      · have := new first List.mem_cons_self
        omega
      · exact hfirst r hr

/-- Adds a pending row, unless the table has one of that id. -/
def save (t : Table) (e : Event) : Bool × Table :=
  if h : (t.find? e.id).isSome then (false, t)
  else
    (true, { t with
      rows := insertRow (.pending e) t.rows
      ascending := insertRow_ascending t.ascending fun r hr same =>
        h (List.find?_isSome.2 ⟨r, hr, beq_iff_eq.2 same⟩) })

/-- Adds pending rows one after the other, and says of each whether it was new. -/
def saveAll (t : Table) : List Event → List Bool × Table
  | [] => ([], t)
  | e :: events =>
    let (isNew, t) := t.save e
    let (rest, t) := t.saveAll events
    (isNew :: rest, t)

/-! ### Claims -/

/-- The rows of a partition that may be claimed, in the order of the table; none if for one of them that
cannot be told. -/
def claimable? (t : Table) (p : Partition) (now : Instant) (stuck : Span) : Option (List Row) :=
  t.rows.filterM fun r => if p.owns r.id then r.isClaimable? now stuck else some false

/-- The rows that a claim takes, oldest first. -/
def choose (candidates : List Row) (limit : Nat) : List Row := (candidates.mergeSort Row.precedes).take limit

/-- Claims rows. If it cannot be told which may be claimed, none is and the claim has no answer. -/
def claim (t : Table) (p : Partition) (limit : Nat) (now : Instant) (stuck : Span) :
    Option (List Row × Table) :=
  if limit = 0 then some ([], t)
  else (t.claimable? p now stuck).map fun candidates =>
    let chosen := choose candidates limit
    let mark (r : Row) := r.claimed t.token now
    (chosen.map mark,
      t.mapRows (fun r => if chosen.any (·.id == r.id) then mark r else r) fun r => by
        split
        · exact r.id_claimed t.token now
        · rfl)

/-! ### Outcomes -/

/-- Changes the row of an id if it is being sent, and says whether it was. -/
def settle (t : Table) (id : Int) (f : Row → Row) (keeps : ∀ r, (f r).id = r.id) : Bool × Table :=
  (t.rows.any (·.isSendingAs id),
    t.mapRows (fun r => if r.isSendingAs id then f r else r) fun r => by
      split
      · exact keeps r
      · rfl)

/-- Marks one row after the other, and counts those that were being sent. -/
def markPublished (t : Table) (now : Instant) : List Int → Nat × Table
  | [] => (0, t)
  | id :: ids =>
    let (marked, t) := t.settle id (·.published now) (·.id_published now)
    let (count, t) := t.markPublished now ids
    (count + marked.toNat, t)

def markFailed (t : Table) (id : Int) (cause : String) (delay : Span) (now : Instant) : Bool × Table :=
  t.settle id (·.failed cause delay now) (·.id_failed cause delay now)

def markDead (t : Table) (id : Int) (cause : String) (now : Instant) : Bool × Table :=
  t.settle id (·.deadLettered cause now) (·.id_deadLettered cause now)

/-! ### Counts -/

def count (t : Table) (s : Status) : Nat := t.rows.countP fun r => r.status == s

/-- The number of rows in each state that has any. -/
def counts (t : Table) : List (Status × Int) :=
  (Status.all.map fun s => (s, (t.count s : Int))).filter fun (_, n) => n != 0

/-! ### The table as a store -/

def answer : (r : Request) → Table → Except Interrupt r.Answer × Table
  | .save e, t => let (isNew, t) := t.save e; (.ok isNew, t)
  | .claim p limit now stuck, t =>
    match t.claim p limit now stuck with
    | some (rows, t) => (.ok rows, t)
    | none => (.error (.crash Row.dateOverflow), t)
  | .markPublished ids now, t => let (n, t) := t.markPublished now ids; (.ok n, t)
  | .markFailed id cause delay now, t => let (marked, t) := t.markFailed id cause delay now; (.ok marked, t)
  | .markDead id cause now, t => let (marked, t) := t.markDead id cause now; (.ok marked, t)
  | .counts, t => (.ok t.counts, t)

def store : Store Table := ⟨answer⟩

end Table

end Outbox
