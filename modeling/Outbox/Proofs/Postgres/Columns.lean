import Outbox.Postgres.ClaimedRow
import Outbox.Postgres.Statement

/-! What is read of a claimed record. All its columns are read, or the first of them that cannot be read decides. The
client itself breaks down only over a time that is no date. -/

namespace Outbox.Postgres

variable {α β : Type} {row : Row} {record : Record} {name text : String} {interrupt : Interrupt}

/-- Why there is no result, if there is none. -/
def interrupt? : Except Interrupt α → Option Interrupt
  | .ok _ => none
  | .error interrupt => some interrupt

theorem interrupt?_eq_none_iff {x : Except Interrupt α} : interrupt? x = none ↔ ∃ a, x = .ok a := by
  cases x <;> simp [interrupt?]

theorem interrupt?_eq_some_iff {x : Except Interrupt α} : interrupt? x = some interrupt ↔ x = .error interrupt := by
  cases x <;> simp [interrupt?]

theorem bind_eq_ok_iff {x : Except Interrupt α} {k : α → Except Interrupt β} {b : β} :
    (x >>= k) = .ok b ↔ ∃ a, x = .ok a ∧ k a = .ok b := by
  constructor
  · intro h
    cases x with
    | ok a => exact ⟨a, rfl, h⟩
    | error e => cases h
  · rintro ⟨a, rfl, h⟩
    exact h

/-- The first interrupt of two steps, if that of the second does not depend on what came of the first. -/
theorem interrupt?_bind {x : Except Interrupt α} {k : α → Except Interrupt β} {later : Option Interrupt}
    (h : ∀ a, interrupt? (k a) = later) : interrupt? (x >>= k) = (interrupt? x).or later := by
  cases x with
  | ok a => exact h a
  | error e => rfl

/-! ### Cells that cannot be read -/

/-- A content that breaks the client down if it is read. -/
def Reading.Crashes (r : Reading α) (content : Content) (text : String) : Prop := r.read content = .error (.crash text)

theorem Reading.not_crashes_mapError {ε : Type} {x : Except ε α} {message : ε → String} :
    x.mapError (fun e => Unreadable.because (message e)) ≠ .error (.crash text) := by
  cases x with
  | ok a => exact fun h => by cases h
  | error e => exact fun h => by cases h

/-- A way to read that no content breaks down. -/
def Reading.IsGentle (r : Reading α) : Prop := ∀ content text, ¬r.Crashes content text

theorem Reading.isGentle_int8 : int8.IsGentle := by
  intro content text h
  cases content <;> cases h

theorem Reading.isGentle_int4 : int4.IsGentle := by
  intro content text h
  cases content with
  | integer n =>
    simp only [Crashes, int4] at h
    split at h <;> cases h
  | bytes b => cases h
  | token t => cases h

theorem Reading.isGentle_text : Reading.text.IsGentle := by
  intro content text h
  cases content with
  | integer n => cases h
  | bytes b => exact not_crashes_mapError h
  | token t => cases h

theorem Reading.isGentle_bytes : bytes.IsGentle := by
  intro content text h
  cases content <;> cases h

theorem Reading.isGentle_json : json.IsGentle := by
  intro content text h
  cases content with
  | integer n => cases h
  | bytes b => exact not_crashes_mapError h
  | token t => cases h

theorem Reading.isGentle_token : token.IsGentle := by
  intro content text h
  cases content <;> cases h

/-- The cell holds a content that breaks the client down. -/
def Cell.Crashes (c : Cell) (r : Reading α) (text : String) : Prop :=
  ∃ content, c.content = some content ∧ (c.type = r.type ∨ c.type ∈ r.alike) ∧ r.Crashes content text

theorem Cell.read?_error {c : Cell} {column : String} {r : Reading α} (h : c.read? column r = .error interrupt) :
    (∃ e, interrupt = .fault (.database e)) ∨ ∃ text, interrupt = .crash text ∧ c.Crashes r text := by
  rw [read?] at h
  split at h
  · cases h
  · next content hcontent =>
    split at h
    · next htype =>
      cases hread : r.read content with
      | ok a => rw [hread] at h; cases h
      | error u =>
        rw [hread] at h
        cases h
        cases u with
        | because text => exact .inl ⟨_, rfl⟩
        | crash text => exact .inr ⟨text, rfl, content, hcontent, htype, hread⟩
    · cases h
      exact .inl ⟨_, rfl⟩

theorem Cell.read_error {c : Cell} {column : String} {r : Reading α} (h : c.read column r = .error interrupt) :
    (∃ e, interrupt = .fault (.database e)) ∨ ∃ text, interrupt = .crash text ∧ c.Crashes r text := by
  cases hread : c.read? column r with
  | error e =>
    rw [read, hread] at h
    cases h
    exact read?_error hread
  | ok value =>
    rw [read, hread] at h
    cases value with
    | none =>
      cases h
      exact .inl ⟨_, rfl⟩
    | some a => cases h

/-- The cell holds no time, or one that is a date. -/
def Cell.isDated : Cell → Bool
  | ⟨.timestamp, some (.integer n)⟩ => (ofServerTime? n).isSome
  | _ => true

theorem Cell.not_crashes_instant {c : Cell} (h : c.isDated) : ¬c.Crashes .instant text := by
  obtain ⟨type, _⟩ := c
  rintro ⟨content, rfl, htype, hcrash⟩
  obtain rfl : type = .timestamp := by simpa [Reading.instant] using htype
  cases content with
  | integer n =>
    obtain ⟨i, hi⟩ := Option.isSome_iff_exists.1 h
    simp [Reading.Crashes, Reading.instant, hi] at hcrash
  | bytes b => cases hcrash
  | token t => cases hcrash

/-- Every time that a record holds is a date. -/
def Record.HasDates (record : Record) : Prop :=
  ∀ name ∈ ["created_at", "updated_at", "next_retry_at"], ∀ c ∈ record.lookup name, c.isDated

instance (record : Record) : Decidable record.HasDates :=
  inferInstanceAs (Decidable (∀ name ∈ ["created_at", "updated_at", "next_retry_at"], ∀ c ∈ record.lookup name, c.isDated))

/-! ### Columns -/

/-- A column as a claim reads it. -/
structure Column.Lookup where
  name : String
  interrupt? : Record → Option Interrupt

namespace Column.Lookup

def required (name : String) (r : Reading α) : Lookup := ⟨name, fun record => Postgres.interrupt? (record.get name r)⟩

/-- NULL will do as well. -/
def nullable (name : String) (r : Reading α) : Lookup := ⟨name, fun record => Postgres.interrupt? (record.get? name r)⟩

/-- The columns in the order in which they are read. -/
def all : List Lookup := [required "event_id" .int8, required "event_version" .int4, required "aggregate_type" .text,
  required "aggregate_id" .text, required "event_type" .text, required "payload" .bytes, required "headers" .json,
  required "attempt_count" .int4, nullable "last_error" .text, required "created_at" .instant,
  required "updated_at" .instant, required "next_retry_at" .instant, nullable "claimed_by" .token]

/-- A column that cannot be read is at fault, or it holds a time that is no date. -/
def IsDated (l : Lookup) : Prop := ∀ record interrupt, l.interrupt? record = some interrupt →
  (∃ e, interrupt = .fault (.database e)) ∨ ∃ text, interrupt = .crash text ∧ ¬record.HasDates

variable {r : Reading α}

theorem isDated_required (h : ∀ (record : Record) (c : Cell) (text : String),
    record.HasDates → record.lookup name = some c → ¬c.Crashes r text) : (required name r).IsDated := by
  intro record interrupt hsome
  have herror := interrupt?_eq_some_iff.1 hsome
  rw [Record.get, Record.cell] at herror
  cases hcell : record.lookup name with
  | none =>
    rw [hcell] at herror
    cases herror
    exact .inl ⟨_, rfl⟩
  | some c =>
    rw [hcell] at herror
    refine (Cell.read_error herror).imp_right ?_
    rintro ⟨text, rfl, hcrash⟩
    exact ⟨text, rfl, fun hdates => h record c text hdates hcell hcrash⟩

theorem isDated_instant (hname : name ∈ ["created_at", "updated_at", "next_retry_at"]) :
    (required name .instant).IsDated :=
  isDated_required fun _ _ _ hdates hcell => Cell.not_crashes_instant (hdates name hname _ hcell)

theorem isDated_of_isGentle (h : r.IsGentle) : (required name r).IsDated :=
  isDated_required fun _ _ text _ _ ⟨content, _, _, hcrash⟩ => h content text hcrash

theorem isDated_nullable (h : r.IsGentle) : (nullable name r).IsDated := by
  intro record interrupt hsome
  have herror := interrupt?_eq_some_iff.1 hsome
  rw [Record.get?, Record.cell] at herror
  cases hcell : record.lookup name with
  | none =>
    rw [hcell] at herror
    cases herror
    exact .inl ⟨_, rfl⟩
  | some c =>
    rw [hcell] at herror
    refine (Cell.read?_error herror).imp_right ?_
    rintro ⟨text, rfl, content, -, -, hcrash⟩
    exact absurd hcrash (h content text)

theorem isDated_all : ∀ l ∈ all, l.IsDated := by
  simp only [all, List.forall_mem_cons]
  exact ⟨isDated_of_isGentle Reading.isGentle_int8, isDated_of_isGentle Reading.isGentle_int4,
    isDated_of_isGentle Reading.isGentle_text, isDated_of_isGentle Reading.isGentle_text,
    isDated_of_isGentle Reading.isGentle_text, isDated_of_isGentle Reading.isGentle_bytes,
    isDated_of_isGentle Reading.isGentle_json, isDated_of_isGentle Reading.isGentle_int4,
    isDated_nullable Reading.isGentle_text, isDated_instant (by simp), isDated_instant (by simp),
    isDated_instant (by simp), isDated_nullable Reading.isGentle_token, List.forall_mem_nil _⟩

end Column.Lookup

/-! ### Records -/

namespace Record

/-- Why columns of a record cannot be read, in the order in which they are read. -/
def faults (record : Record) : List Interrupt := Column.Lookup.all.filterMap fun l => l.interrupt? record

theorem mem_faults (h : interrupt ∈ record.faults) :
    (∃ e, interrupt = .fault (.database e)) ∨ ∃ text, interrupt = .crash text ∧ ¬record.HasDates := by
  obtain ⟨l, hl, hsome⟩ := List.mem_filterMap.1 h
  exact Column.Lookup.isDated_all l hl record interrupt hsome

/-- The first column that cannot be read decides. -/
theorem interrupt?_claimedRow (record : Record) : interrupt? record.claimedRow = record.faults.head? := by
  have hcons {l : Column.Lookup} {ls : List Column.Lookup} : ((l :: ls).filterMap fun l => l.interrupt? record).head? =
      (l.interrupt? record).or (ls.filterMap fun l => l.interrupt? record).head? := by
    rw [List.filterMap_cons]
    cases l.interrupt? record <;> rfl
  rw [claimedRow, faults, Column.Lookup.all]
  simp only [hcons]
  iterate 13 refine interrupt?_bind fun _ => ?_
  rfl

/-- All columns of a record are read, as the fields of a row. -/
structure Holds (record : Record) (row : Row) : Prop where
  id : record.get "event_id" .int8 = .ok row.event.id
  version : record.get "event_version" .int4 = .ok row.event.version
  aggregateType : record.get "aggregate_type" .text = .ok row.event.aggregateType
  aggregateId : record.get "aggregate_id" .text = .ok row.event.aggregateId
  kind : record.get "event_type" .text = .ok row.event.kind
  payload : record.get "payload" .bytes = .ok row.event.payload
  headers : ∃ v, record.get "headers" .json = .ok v ∧ row.event.headers = headersOfJson v
  attempt : record.get "attempt_count" .int4 = .ok row.attempt
  lastError : record.get? "last_error" .text = .ok row.lastError
  createdAt : record.get "created_at" .instant = .ok row.event.createdAt
  updatedAt : record.get "updated_at" .instant = .ok row.updatedAt
  nextRetryAt : record.get "next_retry_at" .instant = .ok row.nextRetryAt
  claimedBy : record.get? "claimed_by" .token = .ok row.claimedBy
  status : row.status = .sending

/-- A record is read as a row exactly if all its columns are. -/
theorem claimedRow_eq_ok_iff : record.claimedRow = .ok row ↔ record.Holds row := by
  simp only [claimedRow, bind_eq_ok_iff]
  constructor
  · rintro ⟨id, hid, version, hversion, type, htype, aggregate, haggregate, kind, hkind, payload, hpayload, v, hv,
      attempt, hattempt, error, herror, created, hcreated, updated, hupdated, retry, hretry, token, htoken, hrow⟩
    cases hrow
    exact ⟨hid, hversion, htype, haggregate, hkind, hpayload, ⟨v, hv, rfl⟩, hattempt, herror, hcreated, hupdated, hretry,
      htoken, rfl⟩
  · rintro ⟨hid, hversion, htype, haggregate, hkind, hpayload, ⟨v, hv, hheaders⟩, hattempt, herror, hcreated, hupdated,
      hretry, htoken, hstatus⟩
    refine ⟨_, hid, _, hversion, _, htype, _, haggregate, _, hkind, _, hpayload, _, hv, _, hattempt, _, herror, _, hcreated,
      _, hupdated, _, hretry, _, htoken, ?_⟩
    rw [← hheaders, ← hstatus]
    rfl

theorem faults_eq_nil_iff : record.faults = [] ↔ ∃ row, record.Holds row := by
  rw [← List.head?_eq_none_iff, ← interrupt?_claimedRow, interrupt?_eq_none_iff]
  simp only [claimedRow_eq_ok_iff]

end Record

end Outbox.Postgres
