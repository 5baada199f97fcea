import Outbox.Proofs.Postgres.Columns
import Outbox.Proofs.Postgres.Exchanges
import Outbox.Proofs.Store.Causes
import Outbox.Proofs.Store.Queue

/-! A claim over whatever records the server returns. The records that can be read are handed out, oldest first, and
each of the others is given up by an update of its own. The first of these that fails, or whose record does not even
tell its id, ends the claim. A time that is no date breaks the client down, and what was claimed is neither handed out
nor given up. -/

namespace Outbox

/-! ### Order -/

/-- The rows in the order of their age; rows of one time and one id stay in their order. -/
structure Row.StablySorted (rows sorted : List Row) : Prop where
  perm : sorted.Perm rows
  ordered : sorted.Pairwise fun a b => ¬b.Before a
  stable : ∀ createdAt id, sorted.filter (fun r => r.event.createdAt = createdAt ∧ r.id = id) =
    rows.filter fun r => r.event.createdAt = createdAt ∧ r.id = id

theorem Row.precedes_iff_not_before {a b : Row} : a.precedes b ↔ ¬b.Before a := by
  rw [precedes_iff, before_iff]
  omega

theorem Row.stablySorted_mergeSort (rows : List Row) : StablySorted rows (rows.mergeSort precedes) where
  perm := List.mergeSort_perm rows precedes
  ordered := (List.pairwise_mergeSort precedes_trans precedes_total rows).imp precedes_iff_not_before.1
  stable createdAt id := by
    let alike := rows.filter fun r => r.event.createdAt = createdAt ∧ r.id = id
    have hage : alike.Pairwise fun a b => a.precedes b := by
      refine List.pairwise_of_forall_mem_list fun a ha b hb => ?_
      have ha : a.event.createdAt = createdAt ∧ a.id = id := by simpa using (List.mem_filter.1 ha).2
      have hb : b.event.createdAt = createdAt ∧ b.id = id := by simpa using (List.mem_filter.1 hb).2
      rw [precedes_iff, ha.1, hb.1, ha.2, hb.2]
      exact .inr ⟨rfl, Int.le_refl id⟩
    have hsub : alike.Sublist (rows.mergeSort precedes) :=
      List.sublist_mergeSort precedes_trans precedes_total hage List.filter_sublist
    -- Both are as long, since sorting keeps the rows.
    have hsame := hsub.filter fun r => decide (r.event.createdAt = createdAt ∧ r.id = id)
    rw [List.filter_filter] at hsame
    simp only [Bool.and_self] at hsame
    exact (hsame.eq_of_length ((List.mergeSort_perm rows precedes).filter _).length_eq.symm).symm

namespace Postgres

variable {c c' c₁ : Client} {record : Record} {records before : List Record} {now : Instant} {interrupt : Interrupt}
  {statement : Statement}

/-! ### Records -/

namespace Record

def IsReadable (record : Record) : Prop := record.faults = []

instance (record : Record) : Decidable record.IsReadable := inferInstanceAs (Decidable (record.faults = []))

/-- The update that gives up a record: it names the record's id, and its cause is the first column that cannot be
read. -/
def Parks (now : Instant) (record : Record) (statement : Statement) : Prop :=
  ∃ id e cut, record.get "event_id" .int8 = .ok id ∧ record.faults.head? = some (.fault (.database e)) ∧
    statement = .markDead id (undecodable e) now ∧ statement.parameters = [.integer id, .text cut, .ofInstant now] ∧
    Cause.IsCut ("undecodable outbox row: " ++ e.message) cut

theorem claimedRow_of_holds {row : Row} (h : record.Holds row) : record.claimedRow = .ok row := claimedRow_eq_ok_iff.2 h

theorem status_of_holds {rows : List Row} (h : records.Forall₂ Holds rows) : ∀ row ∈ rows, row.status = .sending := by
  induction h with
  | nil => exact List.forall_mem_nil _
  | cons hrow _ ih => exact List.forall_mem_cons.2 ⟨hrow.status, ih⟩

theorem claimedRow_of_head? (h : record.faults.head? = some interrupt) : record.claimedRow = .error interrupt :=
  interrupt?_eq_some_iff.1 ((interrupt?_claimedRow record).trans h)

/-- The id is the first column that is read. -/
theorem head?_faults_of_get (h : record.get "event_id" .int8 = .error interrupt) :
    record.faults.head? = some interrupt := by
  have hid : interrupt? (record.get "event_id" .int8) = some interrupt := interrupt?_eq_some_iff.2 h
  simp [faults, Column.Lookup.all, Column.Lookup.required, hid]

/-- A record whose times are dates and that tells its id is read, or it can be given up. -/
theorem holds_or_parks (hdates : record.HasDates) (hid : ∃ id, record.get "event_id" .int8 = .ok id) (now : Instant) :
    (record.IsReadable ∧ ∃ row, record.Holds row) ∨ ¬record.IsReadable ∧ ∃ statement, record.Parks now statement := by
  cases hfaults : record.faults with
  | nil => exact .inl ⟨hfaults, faults_eq_nil_iff.1 hfaults⟩
  | cons interrupt rest =>
    obtain ⟨id, hid⟩ := hid
    refine .inr ⟨fun h => ?_, ?_⟩
    · rw [IsReadable, hfaults] at h
      cases h
    · obtain ⟨e, rfl⟩ | ⟨-, -, hnot⟩ := mem_faults (hfaults ▸ List.mem_cons_self : interrupt ∈ record.faults)
      · refine ⟨_, id, e, _, hid, ?_, rfl, rfl, Cause.isCut_truncate _⟩
        rw [hfaults, List.head?_cons]
      · exact absurd hdates hnot

end Record

/-! ### Reading on -/

namespace Client

theorem readClaimed_cons_holds {row : Row} (h : record.Holds row) (c : Client) (now : Instant) (rest : List Record) :
    c.readClaimed now (record :: rest) =
      ((c.readClaimed now rest).1.map (row :: ·), (c.readClaimed now rest).2) := by
  rw [readClaimed, Record.claimedRow_of_holds h]

theorem readClaimed_cons_parks (h : record.Parks now statement) (c : Client) (rest : List Record) :
    c.readClaimed now (record :: rest) =
      match c.execute statement with
      | (.error interrupt, c) => (.error interrupt, c)
      | (.ok _, c) => c.readClaimed now rest := by
  obtain ⟨id, e, cut, hid, hfaults, rfl, -⟩ := h
  rw [readClaimed, Record.claimedRow_of_head? hfaults]
  simp only [hid, update]
  cases c.execute (.markDead id (undecodable e) now) with
  | mk result c' => cases result <;> rfl

theorem readClaimed_cons_nameless (h : record.get "event_id" .int8 = .error interrupt) (c : Client) (now : Instant)
    (rest : List Record) : c.readClaimed now (record :: rest) = (.error interrupt, c) := by
  rw [readClaimed, Record.claimedRow_of_head? (Record.head?_faults_of_get h)]
  cases interrupt with
  | fault f =>
    cases f with
    | database e => simp only [h]
    | serialization e => rfl
  | crash text => rfl

theorem readClaimed_cons_crash {text : String} (h : record.faults.head? = some (.crash text)) (c : Client)
    (now : Instant) (rest : List Record) : c.readClaimed now (record :: rest) = (.error (.crash text), c) := by
  rw [readClaimed, Record.claimedRow_of_head? h]

/-- Once the records before are read or given up, the claim is where it would start with the others. -/
theorem readClaimed_append (hdates : ∀ record ∈ before, record.HasDates)
    (hids : ∀ record ∈ before, ∃ id, record.get "event_id" .int8 = .ok id) (now : Instant) :
    ∃ rows parkings, (before.filter fun r => r.IsReadable).Forall₂ Record.Holds rows ∧
      (before.filter fun r => ¬r.IsReadable).Forall₂ (Record.Parks now) parkings ∧
      ∀ c c', Sends c parkings c' → ∀ rest, c.readClaimed now (before ++ rest) =
        ((c'.readClaimed now rest).1.map (rows ++ ·), (c'.readClaimed now rest).2) := by
  induction before with
  | nil =>
    refine ⟨[], [], .nil, .nil, fun c c' hsends rest => ?_⟩
    cases hsends
    cases hrest : c.readClaimed now rest with
    | mk result c' => cases result <;> simp [hrest, Except.map]
  | cons record before ih =>
    obtain ⟨hdate, hdates⟩ := List.forall_mem_cons.1 hdates
    obtain ⟨hid, hids⟩ := List.forall_mem_cons.1 hids
    obtain ⟨rows, parkings, hrows, hparkings, hread⟩ := ih hdates hids
    obtain ⟨hreadable, row, hrow⟩ | ⟨hunreadable, statement, hstatement⟩ := Record.holds_or_parks hdate hid now
    · refine ⟨row :: rows, parkings, ?_, ?_, fun c c' hsends rest => ?_⟩
      · simpa [List.filter_cons, hreadable] using List.Forall₂.cons hrow hrows
      · simpa [List.filter_cons, hreadable] using hparkings
      · rw [List.cons_append, readClaimed_cons_holds hrow, hread c c' hsends rest]
        cases (c'.readClaimed now rest).1 <;> rfl
    · refine ⟨rows, statement :: parkings, ?_, ?_, fun c c' hsends rest => ?_⟩
      · simpa [List.filter_cons, hunreadable] using hrows
      · simpa [List.filter_cons, hunreadable] using List.Forall₂.cons hstatement hparkings
      · cases hsends with
        | cons hsent hsends =>
          rw [List.cons_append, readClaimed_cons_parks hstatement, hsent]
          exact hread _ c' hsends rest

/-! ### Claims -/

variable {p : Partition} {limit : Nat} {stuck : Span} {result : Result}

theorem claim_eq (hlimit : 0 < limit) (h : c.execute (.claim p limit now stuck c.token) = (.ok result, c₁)) :
    c.claim p limit now stuck = ((c₁.readClaimed now result.records).1.map fun rows => rows.mergeSort Row.precedes,
      (c₁.readClaimed now result.records).2) := by
  rw [claim, if_neg (by omega), h]

theorem claim_of_readClaimed (hlimit : 0 < limit)
    (h : c.execute (.claim p limit now stuck c.token) = (.ok result, c₁))
    (hread : c₁.readClaimed now result.records = (.error interrupt, c')) :
    c.claim p limit now stuck = (.error interrupt, c') := by
  rw [claim_eq hlimit h, hread]
  rfl

/-- A claim hands out the records that can be read and gives up each of the others, in their order, as long as they
tell their ids and no time is beyond the calendar. It ends at the first record that does not tell its id or whose update
fails, having given up those before it; and it breaks down over a time that is no date, with nothing sent any more. -/
theorem claim_spares (hlimit : 0 < limit) (hclaim : c.execute (.claim p limit now stuck c.token) = (.ok result, c₁))
    (hdates : ∀ record ∈ before, record.HasDates)
    (hids : ∀ record ∈ before, ∃ id, record.get "event_id" .int8 = .ok id) :
    ∃ rows parkings, (before.filter fun r => r.IsReadable).Forall₂ Record.Holds rows ∧
      (before.filter fun r => ¬r.IsReadable).Forall₂ (Record.Parks now) parkings ∧
      ∀ c₂, c₁.Sends parkings c₂ →
        c₂.statements = c.statements ++ .claim p limit now stuck c.token :: parkings ∧
        (result.records = before → ∃ sorted, c.claim p limit now stuck = (.ok sorted, c₂) ∧
          Row.StablySorted rows sorted ∧ ∀ row ∈ sorted, row.status = .sending) ∧
        ∀ record after, result.records = before ++ record :: after →
          (∀ interrupt, record.get "event_id" .int8 = .error interrupt →
            c.claim p limit now stuck = (.error interrupt, c₂)) ∧
          (∀ statement interrupt c₃, record.Parks now statement → c₂.execute statement = (.error interrupt, c₃) →
            c.claim p limit now stuck = (.error interrupt, c₃) ∧
              (c₃.statements = c₂.statements ∨ c₃.statements = c₂.statements ++ [statement])) ∧
          ∀ text, record.faults.head? = some (.crash text) →
            c.claim p limit now stuck = (.error (.crash text), c₂) := by
  obtain ⟨rows, parkings, hrows, hparkings, hread⟩ := readClaimed_append hdates hids now
  refine ⟨rows, parkings, hrows, hparkings, fun c₂ hsends => ⟨?_, fun hall => ?_, fun record after hrecords => ?_⟩⟩
  · rw [hsends.statements_eq, statements_execute_ok hclaim, List.append_assoc, List.singleton_append]
  · have hlast := hread c₁ c₂ hsends []
    rw [List.append_nil, ← hall] at hlast
    refine ⟨rows.mergeSort Row.precedes, ?_, Row.stablySorted_mergeSort rows, fun row hrow => ?_⟩
    · rw [claim_eq hlimit hclaim, hlast]
      simp [readClaimed, Except.map]
    · exact Record.status_of_holds hrows row (List.mem_mergeSort.1 hrow)
  · have hstop {interrupt : Interrupt} {c' : Client}
        (h : c₂.readClaimed now (record :: after) = (.error interrupt, c')) :
        c.claim p limit now stuck = (.error interrupt, c') := by
      refine claim_of_readClaimed hlimit hclaim ?_
      rw [hrecords, hread c₁ c₂ hsends, h]
      rfl
    refine ⟨fun interrupt hname => ?_, fun statement interrupt c₃ hparks hfails => ?_, fun text hcrash => ?_⟩
    · exact hstop (readClaimed_cons_nameless hname c₂ now after)
    · refine ⟨hstop ?_, statements_execute_error hfails⟩
      rw [readClaimed_cons_parks hparks, hfails]
    · exact hstop (readClaimed_cons_crash hcrash c₂ now after)

end Client

/-! ### Servers -/

/-- A record as a relay leaves it, without headers. -/
def soundRecord (id : Int) : Record :=
  .ofRow (.pending {
    id := id, aggregateType := "Order", aggregateId := "order-1", kind := "OrderPlaced", payload := []
    createdAt := .epoch }) (Utf8.ofString "\x7b\x7d")

/-- A record without a payload. -/
def tornRecord (id : Int) : Record := (soundRecord id).redeclared [("payload", none)]

/-- A record whose time of creation is the end of time. -/
def endlessRecord (id : Int) : Record :=
  (soundRecord id).withBinary [("created_at", some [0x7f, 0xff, 0xff, 0xff, 0xff, 0xff, 0xff, 0xff])]

/-- A client whose first claim returns the records, and whose next update changes a row. -/
def clientOf (records : List Record) : Client where
  session := { server := { replies := [.records records, .done 1] } }

/-- The torn record is given up, and the sound one is handed out. -/
theorem torn_parked : ∃ row c', (clientOf [tornRecord 5, soundRecord 6]).claim .whole 100 .epoch (.ofSeconds 60) =
    (.ok [row], c') ∧ row.id = 6 ∧ c'.statements = [.claim .whole 100 .epoch (.ofSeconds 60) ⟨1⟩,
      .markDead 5 "undecodable outbox row: no column found for name: payload" .epoch] := by
  let records := [tornRecord 5, soundRecord 6]
  let c := clientOf records
  let first : Statement := .claim .whole 100 .epoch (.ofSeconds 60) ⟨1⟩
  have hclaim : c.execute first = (.ok ⟨2, records⟩, (c.execute first).2) := rfl
  have hids : ∀ record ∈ records, ∃ id, record.get "event_id" .int8 = .ok id := by
    simp only [records, List.forall_mem_cons]
    exact ⟨⟨5, rfl⟩, ⟨6, rfl⟩, List.forall_mem_nil _⟩
  have htorn : records.filter (fun r => ¬r.IsReadable) = [tornRecord 5] := by decide +kernel
  have hsound : records.filter (fun r => r.IsReadable) = [soundRecord 6] := by decide +kernel
  have hfault : (tornRecord 5).faults.head? = some (.fault (.database (.columnNotFound "payload"))) := by decide +kernel
  obtain ⟨rows, parkings, hrows, hparkings, hall⟩ :=
    Client.claim_spares (by decide : 0 < 100) hclaim (by decide +kernel : ∀ record ∈ records, record.HasDates) hids
  rw [hsound] at hrows
  rw [htorn] at hparkings
  cases hrows with
  | cons hrow hnone =>
    cases hnone
    cases hparkings with
    | cons hparks hnone =>
      cases hnone
      obtain ⟨id, e, cut, hid, he, rfl, -⟩ := hparks
      obtain rfl : 5 = id := Except.ok.inj hid
      rw [hfault] at he
      cases he
      obtain ⟨hsent, hdone, -⟩ := hall _ (.cons rfl (.nil _))
      obtain ⟨sorted, hsorted, hstable, -⟩ := hdone rfl
      rw [List.perm_singleton.1 hstable.perm] at hsorted
      exact ⟨_, _, hsorted, (Except.ok.inj hrow.id).symm, hsent⟩

/-- A record whose time of creation is the end of time takes the batch with it: its id can be read and the server would
take any update, yet nothing is handed out and nothing given up. -/
theorem endless_lost : (∀ record ∈ [endlessRecord 5, soundRecord 6], ∃ id, record.get "event_id" .int8 = .ok id) ∧
    (∃ c, (clientOf [endlessRecord 5, soundRecord 6]).execute (.claim .whole 100 .epoch (.ofSeconds 60) ⟨1⟩) =
      (.ok ⟨2, [endlessRecord 5, soundRecord 6]⟩, c) ∧ ∀ statement, ∃ result, (c.execute statement).1 = .ok result) ∧
    ∃ c, (clientOf [endlessRecord 5, soundRecord 6]).claim .whole 100 .epoch (.ofSeconds 60) =
      (.error (.crash "`NaiveDateTime + TimeDelta` overflowed"), c) ∧
      c.statements = [.claim .whole 100 .epoch (.ofSeconds 60) ⟨1⟩] := by
  have hcrash : (endlessRecord 5).faults.head? = some (.crash "`NaiveDateTime + TimeDelta` overflowed") := by
    decide +kernel
  refine ⟨?_, ⟨_, rfl, fun statement => ?_⟩, ?_⟩
  · simp only [List.forall_mem_cons]
    exact ⟨⟨5, rfl⟩, ⟨6, rfl⟩, List.forall_mem_nil _⟩
  · cases statement <;> exact ⟨_, rfl⟩
  · refine ⟨_, Client.claim_of_readClaimed (by decide) rfl (Client.readClaimed_cons_crash hcrash _ _ _), rfl⟩

end Postgres

end Outbox
