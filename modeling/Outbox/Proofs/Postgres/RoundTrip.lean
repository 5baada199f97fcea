import Outbox.Proofs.Bytes.Lossy
import Outbox.Proofs.Envelope.Decoding
import Outbox.Proofs.Postgres.Claimable
import Outbox.Proofs.Postgres.Columns
import Outbox.Proofs.Postgres.Wording
import Outbox.Proofs.Store.Queue

/-! The way of an event through the database. What an insertion stores and a claim changes is read as the row that the
table in memory returns of the same event, but for the name under which it was claimed. Headers that other producers
wrote are read as text: strings as they are, and all else as its JSON. -/

namespace Outbox

theorem Instant.ofNanos?_nanos (i : Instant) : ofNanos? i.nanos = some i := by
  rw [ofNanos?, dif_pos ⟨i.first_le, i.le_last⟩]

/-! ### The table in memory -/

namespace Table

variable {t t' : Table} {e : Event} {p : Partition} {limit : Nat} {now : Instant} {stuck : Span} {rows : List Row} {r : Row}

theorem token_save (t : Table) (e : Event) : (t.save e).2.token = t.token := by
  rw [save]
  split <;> rfl

/-- What a claim returns of an event that was new when it was saved. -/
theorem claimed_of_save (hnew : t.find? e.id = none) (h : (t.save e).2.claim p limit now stuck = some (rows, t'))
    (hr : r ∈ rows) (hid : r.id = e.id) : r = (Row.pending e).claimed t.token now := by
  obtain ⟨chosen, rfl, -, hchosen, -⟩ := claim_eq_some h
  obtain ⟨saved, hsaved, rfl⟩ := List.mem_map.1 hr
  have hfind := find?_of_mem (hchosen saved hsaved).1
  rw [show saved.id = e.id from hid, find?_save, if_pos ⟨rfl, hnew⟩] at hfind
  rw [← Option.some.inj hfind, token_save]

/-- A claim of a table that holds one event returns it. -/
theorem claim_of_save (token : Token) (hown : p.owns e.id) (hdue : e.createdAt ≤ now) (hlimit : 0 < limit) (stuck : Span) :
    ∃ t', (({ token := token } : Table).save e).2.claim p limit now stuck =
      some ([(Row.pending e).claimed token now], t') := by
  have hclaimable : (Row.pending e).isClaimable? now stuck = some true := congrArg some (decide_eq_true hdue)
  let t : Table := (({ token := token } : Table).save e).2
  have hrows : t.rows = [.pending e] := rfl
  have hqueue : t.queue p now stuck = [.pending e] := by
    refine queue_eq (List.pairwise_singleton _ _) fun r => ?_
    rw [hrows, List.mem_singleton]
    refine ⟨?_, And.left⟩
    rintro rfl
    exact ⟨rfl, hown, hclaimable⟩
  have hjudged : t.Judged p now stuck := by
    intro r hr
    obtain rfl := List.mem_singleton.1 (hrows ▸ hr)
    rw [Row.isDue?_iff.2 ⟨hown, hclaimable⟩]
    rfl
  have hclaim := claim_eq_queue limit (.inr hjudged)
  rw [hqueue, List.take_of_length_le hlimit] at hclaim
  exact ⟨_, hclaim⟩

end Table

/-! ### Headers -/

open Json (Value Numeral)

theorem echo_headersValue_of_ascending {headers : Headers} (h : Json.Ascending headers) :
    (headersValue headers).echo id = headersValue headers := by
  rw [Message.echo_headersValue, headersValue]
  congr 1
  exact Json.Ascending.sortEntries_eq_self (List.pairwise_map.2 h)

theorem parse_headersValue {headers : Headers} (h : Json.Ascending headers) :
    Json.parse (Utf8.ofString (headersValue headers).write) = .ok (headersValue headers) := by
  have hdepth : (headersValue headers).depth ≤ Json.deepest := by
    rw [Message.depth_headersValue]
    decide
  rw [Json.parse_write (Message.allNumbers_headersValue _ headers) hdepth, echo_headersValue_of_ascending h]

namespace Postgres

theorem headersOfJson_headersValue (headers : Headers) : headersOfJson (headersValue headers) = headers := by
  rw [headersValue, headersOfJson, List.map_map]
  exact List.map_id' headers

/-! ### Records -/

theorem ofServerTime?_serverTime {i : Instant} (h : i.IsMicros) : ofServerTime? (serverTime i) = some i := by
  have hnanos : (serverTime i + serverEpoch) * 1000 = i.nanos := by
    rw [Int.add_mul, serverTime_mul h]
    omega
  rw [ofServerTime?, Instant.ofMicros?, hnanos, Instant.ofNanos?_nanos]

namespace Record

variable {α : Type} {record : Record} {name : String} {r : Reading α} {content : Content} {a : α}

theorem get_of_read (hcell : record.lookup name = some ⟨r.type, some content⟩) (hread : r.read content = .ok a) :
    record.get name r = .ok a := by
  simp only [get, cell, hcell, bind, Except.bind, Cell.read, Cell.read?, true_or, if_true, hread]
  rfl

theorem get?_of_read (hcell : record.lookup name = some ⟨r.type, some content⟩) (hread : r.read content = .ok a) :
    record.get? name r = .ok (some a) := by
  have hoptional : r.optional.type = r.type ∧ r.optional.read = r.read := ⟨rfl, rfl⟩
  simp only [get?, cell, hcell, bind, Except.bind, Cell.read?, hoptional, true_or, if_true, hread]
  rfl

theorem get?_of_null {type : ColumnType} (hcell : record.lookup name = some ⟨type, none⟩) :
    record.get? name r = .ok none := by
  simp only [get?, cell, hcell, bind, Except.bind, Cell.read?]

end Record

theorem Reading.read_text (s : String) : Reading.text.read (.bytes (Utf8.ofString s)) = .ok s := by
  simp only [text, Utf8.decode_eq_ok_iff.2 rfl]
  rfl

theorem Reading.read_int4 {n : Int} (h : -2147483648 ≤ n ∧ n ≤ 2147483647) : int4.read (.integer n) = .ok n := if_pos h

theorem Reading.read_instant {i : Instant} (h : i.IsMicros) : instant.read (.integer (serverTime i)) = .ok i := by
  simp only [instant, ofServerTime?_serverTime h]

theorem Reading.read_json {document : Bytes} {v : Value} (h : Json.parse document = .ok v) :
    json.read (.bytes document) = .ok v := by
  simp only [json, h]
  rfl

/-- The record of a row is read as the row. -/
theorem claimedRow_ofRow {r : Row} {document : Bytes} (hsending : r.status = .sending)
    (hversion : -2147483648 ≤ r.event.version ∧ r.event.version ≤ 2147483647)
    (hattempt : -2147483648 ≤ r.attempt ∧ r.attempt ≤ 2147483647) (hcreated : r.event.createdAt.IsMicros)
    (hupdated : r.updatedAt.IsMicros) (hretry : r.nextRetryAt.IsMicros)
    (hdocument : Json.parse document = .ok (headersValue r.event.headers)) :
    (Record.ofRow r document).claimedRow = .ok r := by
  refine Record.claimedRow_eq_ok_iff.2 {
    id := Record.get_of_read rfl rfl
    version := Record.get_of_read rfl (Reading.read_int4 hversion)
    aggregateType := Record.get_of_read rfl (Reading.read_text _)
    aggregateId := Record.get_of_read rfl (Reading.read_text _)
    kind := Record.get_of_read rfl (Reading.read_text _)
    payload := Record.get_of_read rfl rfl
    headers := ⟨_, Record.get_of_read rfl (Reading.read_json hdocument), (headersOfJson_headersValue _).symm⟩
    attempt := Record.get_of_read rfl (Reading.read_int4 hattempt)
    lastError := ?_
    createdAt := Record.get_of_read rfl (Reading.read_instant hcreated)
    updatedAt := Record.get_of_read rfl (Reading.read_instant hupdated)
    nextRetryAt := Record.get_of_read rfl (Reading.read_instant hretry)
    claimedBy := ?_
    status := hsending }
  · cases herror : r.lastError with
    | none => exact Record.get?_of_null (by rw [Record.ofRow, herror]; rfl)
    | some s => exact Record.get?_of_read (by rw [Record.ofRow, herror]; rfl) (Reading.read_text s)
  · cases htoken : r.claimedBy with
    | none => exact Record.get?_of_null (by rw [Record.ofRow, htoken]; rfl)
    | some token => exact Record.get?_of_read (by rw [Record.ofRow, htoken]; rfl) rfl

/-! ### Headers of other producers -/

/-- An integer of 64 bits, or a zero with its sign: the numbers of texts without fractions and exponents. -/
def IsExact (n : Numeral) : Prop := (∃ i, n = .integer i ∧ Json.IsStored i) ∨ ∃ negative, n = .double (.zero negative)

theorem readsNumber_zero (negative : Bool) :
    Json.ReadsNumber (Utf8.encode (Numeral.double (.zero negative)).write) (.double (.zero negative)) := by
  have htext : (Numeral.double (.zero negative)).write = (if negative then ['-'] else []) ++ ['0', '.', '0'] := by
    cases negative <;> decide +kernel
  have hwhole : Json.IsWhole ['0'] := ⟨List.forall_mem_singleton.2 rfl, .inl rfl⟩
  have hscaled := Json.readsScaled_shifted hwhole (fun _ => rfl) (by rfl : Nat.ofDigitChars 10 ['0'] 0 = 0) (by decide)
  rw [htext]
  exact hscaled.readsNumber (y := .zero false) (by decide +kernel) negative

theorem IsExact.readsNumber {n : Numeral} (h : IsExact n) : Json.ReadsNumber (Utf8.encode n.write) n := by
  obtain ⟨i, rfl, hi⟩ | ⟨negative, rfl⟩ := h
  · exact Json.readsNumber_integer hi
  · exact readsNumber_zero negative

/-- The members of an object that was read are nested no deeper than the reader goes, and the members of objects in them
stand in order. -/
theorem echo_of_mem {text : Bytes} {members : List (String × Value)} (h : Json.parse text = .ok (.object members))
    {m : String × Value} (hm : m ∈ members) : m.2.depth ≤ Json.deepest ∧ m.2.echo id = m.2 := by
  have hread := Json.isRead_of_parse h
  refine ⟨?_, ?_⟩
  · exact Nat.le_of_succ_le (Nat.succ_le_succ (Json.membersDepth_le_iff.1 (Nat.le_refl _) m hm) |>.trans hread.depth_le)
  · have hecho := hread.echo_eq id (hread.numbers.imp fun _ _ => rfl)
    rw [Value.echo, Json.echoMembers_eq_map, Value.object.injEq] at hecho
    have hsorted : Json.Ascending members := hecho ▸ Json.ascending_sortEntries _
    have hmapped : Json.Ascending (members.map fun m => (m.1, m.2.echo id)) := List.pairwise_map.2 hsorted
    rw [hmapped.sortEntries_eq_self] at hecho
    exact congrArg Prod.snd (List.map_inj_left.1 (hecho.trans (List.map_id members).symm) m hm)

/-- What becomes of a member of the headers that some producer wrote. -/
structure Keeps (member : String × Value) (header : String × String) : Prop where
  name : header.1 = member.1
  text : ∀ s, member.2 = .string s → header.2 = s
  json : (∀ s, member.2 ≠ .string s) → member.2.AllNumbers IsExact → Json.parse (Utf8.ofString header.2) = .ok member.2

theorem keeps_headersOfJson {text : Bytes} {members : List (String × Value)}
    (h : Json.parse text = .ok (.object members)) : members.Forall₂ Keeps (headersOfJson (.object members)) := by
  rw [headersOfJson, List.forall₂_map_right_iff, List.forall₂_same]
  intro m hm
  obtain ⟨hdepth, hecho⟩ := echo_of_mem h hm
  obtain ⟨name, v⟩ := m
  have hwritten (hnumbers : v.AllNumbers IsExact) : Json.parse (Utf8.ofString v.write) = .ok v := by
    rw [Json.parse_write_of_reads (hnumbers.imp fun _ => IsExact.readsNumber) hdepth]
    exact congrArg Except.ok hecho
  cases v with
  | string s => exact ⟨rfl, fun _ heq => Value.string.inj heq, fun hother => absurd rfl (hother s)⟩
  | null | bool | number | array | object => exact ⟨rfl, nofun, fun _ => hwritten⟩

theorem exists_parse_of_get {record : Record} {name : String} {v : Value} (h : record.get name .json = .ok v) :
    ∃ text, Json.parse text = .ok v := by
  obtain ⟨c, -, h⟩ := bind_eq_ok_iff.1 h
  obtain ⟨held, hheld, h⟩ := bind_eq_ok_iff.1 h
  cases held with
  | none => cases h
  | some v' =>
    cases h
    rw [Cell.read?] at hheld
    split at hheld
    · cases hheld
    · split at hheld
      · next content _ _ =>
        cases content with
        | integer n => cases hheld
        | token t => cases hheld
        | bytes text =>
          cases hparse : Json.parse text with
          | error e =>
            simp only [Reading.json, hparse] at hheld
            cases hheld
          | ok v'' =>
            simp only [Reading.json, hparse] at hheld
            cases hheld
            exact ⟨text, hparse⟩
      · cases hheld

/-! ### Events -/

/-- The texts of the statements say what columns the table has, what an insertion stores in them, what a claim changes
and which columns it returns. By these an event that is saved in the database and claimed is read as the row that the
table in memory returns of it, but for the name of who claimed it; however the server writes documents, as long as it
keeps what they stand for. Headers that other producers wrote keep their names and their text, and all else is kept as
JSON that is read as the same. -/
theorem claimed_as_saved :
    Statement.createTable.text = "CREATE TABLE IF NOT EXISTS outbox_events ( " ++
      Statement.commas (Declaration.all.map Declaration.sql) ++ " )" ∧
    (∀ e, (Statement.insert e).text =
      "INSERT INTO outbox_events ( " ++ Statement.commas (Statement.insertion.map Prod.fst) ++ " ) VALUES (" ++
        Statement.commas (Statement.insertion.map (·.2.sql)) ++
        ") ON CONFLICT (event_id) DO NOTHING") ∧
    (∀ p limit now stuck token, (Statement.claim p limit now stuck token).text =
      "WITH claimable AS ( SELECT event_id FROM outbox_events WHERE " ++ Condition.claimable.text ++
        " ORDER BY created_at ASC LIMIT $5 FOR UPDATE SKIP LOCKED ) UPDATE outbox_events AS e SET " ++
        Statement.commas (Statement.claimChanges.map fun change => change.1 ++ " = " ++ change.2.sql) ++
        " FROM claimable WHERE e.event_id = claimable.event_id RETURNING " ++
        Statement.commas (Statement.claimedColumns.map ("e." ++ ·))) ∧
    (∀ (e : Event) (now : Instant) (document : Value → Bytes), Json.Ascending e.headers →
      -2147483648 ≤ e.version ∧ e.version ≤ 2147483647 → e.createdAt.IsMicros → now.IsMicros → e.createdAt ≤ now →
      Json.parse (document (headersValue e.headers)) = Json.parse (Utf8.ofString (headersValue e.headers).write) →
      ∃ row : Row,
        (∀ p limit stuck token, (((Tuple.inserted (Statement.insert e).parameters).changed
          (Statement.claim p limit now stuck token).parameters Statement.claimChanges).returned document).claimedRow =
            .ok { row with claimedBy := some token }) ∧
        (∀ (t : Table) p limit stuck rows t', t.find? e.id = none →
          (t.save e).2.claim p limit now stuck = some (rows, t') →
          ∀ r ∈ rows, r.id = e.id → r = { row with claimedBy := some t.token }) ∧
        ∀ token p limit stuck, p.owns e.id → 0 < limit → ∃ t',
          (({ token := token } : Table).save e).2.claim p limit now stuck =
            some ([{ row with claimedBy := some token }], t')) ∧
    ∀ (record : Record) (row : Row) (members : List (String × Value)), record.claimedRow = .ok row →
      record.get "headers" .json = .ok (.object members) → members.Forall₂ Keeps row.event.headers := by
  refine ⟨Declaration.createTableText_eq, fun _ => Statement.insertText_eq, fun _ _ _ _ _ => Statement.claimText_eq, ?_, ?_⟩
  · intro e now document hheaders hversion hcreated hnow hdue hdocument
    have hattempt : -2147483648 ≤ (1 : Int) ∧ (1 : Int) ≤ 2147483647 := by decide
    refine ⟨(Row.pending e).claimed ⟨0⟩ now, fun p limit stuck token => ?_, fun t p limit stuck rows t' hnew hclaim r => ?_,
      fun token p limit stuck hown hlimit => ?_⟩
    · rw [inserted_insert, returned_claimed]
      exact claimedRow_ofRow rfl hversion hattempt hcreated hnow hcreated (hdocument.trans (parse_headersValue hheaders))
    · exact fun hr hid => Table.claimed_of_save hnew hclaim hr hid
    · exact Table.claim_of_save token hown hdue hlimit stuck
  · intro record row members hrow hmembers
    obtain ⟨v, hv, hheaders⟩ := (Record.claimedRow_eq_ok_iff.1 hrow).headers
    cases hmembers.symm.trans hv
    obtain ⟨text, htext⟩ := exists_parse_of_get hmembers
    rw [hheaders]
    exact keeps_headersOfJson htext

/-- An event with headers, of the millionth microsecond. -/
def traced : Event where
  id := 7
  version := 3
  aggregateType := "Order"
  aggregateId := "order-7"
  kind := "OrderPlaced"
  payload := [255, 0]
  headers := [("trace", "\"a\""), ("zone", "é")]
  createdAt := { nanos := 1000000000 }

/-- Headers as another producer may have written them, with their members in its own order. -/
def foreignHeaders : Value := .object [
  ("retries", .array [.ofInt 2, .object [("b", .null), ("a", .number (.double (.zero true)))]]),
  ("note", .string "plain")]

/-- The member that is no text, once it was read. -/
def foreignRetries : Value := .array [.ofInt 2, .object [("a", .number (.double (.zero true))), ("b", .null)]]

theorem isExact_foreign : IsExact (.integer 2) ∧ IsExact (.double (.zero true)) :=
  ⟨.inl ⟨2, rfl, by decide, by decide⟩, .inr ⟨true, rfl⟩⟩

theorem parse_foreignHeaders : Json.parse (Utf8.ofString foreignHeaders.write) =
    .ok (.object [("note", .string "plain"), ("retries", foreignRetries)]) := by
  have hexact : foreignHeaders.AllNumbers IsExact := ⟨⟨isExact_foreign.1, ⟨trivial, isExact_foreign.2, trivial⟩, trivial⟩,
    trivial, trivial⟩
  rw [Json.parse_write_of_reads (hexact.imp fun _ => IsExact.readsNumber) (by decide)]
  simp only [foreignHeaders, Value.echo, Json.echoMembers, Json.echoItems, Value.ofInt, id]
  rw [Json.sortEntries_pair (by decide), Json.sortEntries_pair (by decide)]
  rfl

/-- The record of the event with these headers. -/
def foreignRecord : Record := .ofRow ((Row.pending traced).claimed ⟨9⟩ { nanos := 2000000000 })
  (Utf8.ofString foreignHeaders.write)

theorem traced_claimed :
    (∃ row : Row,
      (((Tuple.inserted (Statement.insert traced).parameters).changed
        (Statement.claim .whole 100 { nanos := 2000000000 } (.ofSeconds 60) ⟨9⟩).parameters Statement.claimChanges).returned
          fun v => Utf8.ofString v.write).claimedRow = .ok { row with claimedBy := some ⟨9⟩ } ∧
      ∃ t', (Table.save {} traced).2.claim .whole 100 { nanos := 2000000000 } (.ofSeconds 60) =
        some ([{ row with claimedBy := some ⟨0⟩ }], t')) ∧
    ∃ row text, foreignRecord.claimedRow = .ok row ∧ row.event.headers = [("note", "plain"), ("retries", text)] ∧
      Json.parse (Utf8.ofString text) = .ok foreignRetries := by
  constructor
  · have hheaders : Json.Ascending traced.headers := List.pairwise_pair.2 (by decide)
    obtain ⟨row, hclaimed, -, htable⟩ := claimed_as_saved.2.2.2.1 traced { nanos := 2000000000 }
      (fun v => Utf8.ofString v.write) hheaders (by decide) rfl rfl (by decide) rfl
    exact ⟨row, hclaimed _ _ _ _, htable ⟨0⟩ .whole 100 (.ofSeconds 60) (by decide) (by decide)⟩
  · have hmembers : foreignRecord.get "headers" .json =
        .ok (.object [("note", .string "plain"), ("retries", foreignRetries)]) :=
      Record.get_of_read rfl (Reading.read_json parse_foreignHeaders)
    obtain ⟨row, hrow⟩ := Record.faults_eq_nil_iff.1 (by decide +kernel : foreignRecord.faults = [])
    have hclaimed := Record.claimedRow_eq_ok_iff.2 hrow
    have hkept := claimed_as_saved.2.2.2.2 foreignRecord row _ hclaimed hmembers
    generalize hheaders : row.event.headers = headers at hkept
    cases hkept with
    | @cons _ note _ _ hnote hrest =>
      cases hrest with
      | @cons _ retries _ _ hretries hnone =>
        cases hnone
        have hfirst : note = ("note", "plain") := Prod.ext hnote.name (hnote.text "plain" rfl)
        have hsecond : retries = ("retries", retries.2) := Prod.ext hretries.name rfl
        refine ⟨row, retries.2, hclaimed, ?_, hretries.json nofun ?_⟩
        · rw [hheaders, hfirst, ← hsecond]
        · exact ⟨isExact_foreign.1, ⟨isExact_foreign.2, trivial, trivial⟩, trivial⟩

end Postgres

end Outbox
