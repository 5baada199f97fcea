import Outbox.Envelope.Message
import Outbox.Proofs.Json.Parsed
import Outbox.Proofs.Json.Records

/-! What consumers read. The body of a message is read as an object of its nine members, with what was stored in them;
unless the payload is nested so deep that the object around it is nested too deep for a reader. -/

namespace Outbox

open Json (Value Numeral sortEntries Ascending)

/-! ### Rows -/

/-- A row as a table can hold it: its numbers fit their columns, and no header has the name of another. -/
structure Row.IsStorable (r : Row) : Prop where
  id : -9223372036854775808 ≤ r.id ∧ r.id ≤ 9223372036854775807
  version : -2147483648 ≤ r.event.version ∧ r.event.version ≤ 2147483647
  attempt : -2147483648 ≤ r.attempt ∧ r.attempt ≤ 2147483647
  headers : (r.event.headers.map Prod.fst).Nodup

namespace Message

variable {r : Row} {m : Message} {payload : Value} {f : Numeral → Numeral}

theorem exists_ok_iff {ε α : Type} {x : Except ε α} {fits : Prop} {a : α}
    (h : (fits → x = .ok a) ∧ (¬fits → ∃ e, x = .error e)) : (∃ a, x = .ok a) ↔ fits := by
  refine ⟨fun ⟨b, hb⟩ => ?_, fun hfits => ⟨a, h.1 hfits⟩⟩
  by_contra hfits
  obtain ⟨e, he⟩ := h.2 hfits
  rw [he] at hb
  cases hb

/-! ### The body as a value -/

theorem depth_headersValue (h : Headers) : (headersValue h).depth = 1 := by
  rw [headersValue, Value.depth]
  refine congrArg (· + 1) (Nat.le_zero.1 (Json.membersDepth_le_iff.2 ?_))
  rw [List.forall_mem_map]
  exact fun _ _ => Nat.le_refl 0

/-- The payload is one level deeper in the body. -/
theorem depth_toJson_le_iff (m : Message) {deep : Nat} (h : 1 ≤ deep) :
    m.toJson.depth ≤ deep + 1 ↔ m.payload.depth ≤ deep := by
  simp only [toJson, Value.depth, Json.membersDepth, momentValue, depth_headersValue]
  omega

theorem allNumbers_headersValue (p : Numeral → Prop) (h : Headers) : (headersValue h).AllNumbers p := by
  rw [headersValue, Value.AllNumbers, Json.membersAllNumbers_iff, List.forall_mem_map]
  exact fun _ _ => trivial

theorem allNumbers_toJson {p : Numeral → Prop} (hid : p (.integer m.eventId)) (hversion : p (.integer m.version))
    (hattempt : p (.integer m.attempt)) (hpayload : m.payload.AllNumbers p) : m.toJson.AllNumbers p := by
  exact ⟨hid, hversion, trivial, trivial, trivial, trivial, hattempt, allNumbers_headersValue p m.headers, hpayload,
    trivial⟩

theorem echo_headersValue (f : Numeral → Numeral) (h : Headers) :
    (headersValue h).echo f = .object (sortEntries (h.map fun (name, text) => (name, .string text))) := by
  rw [headersValue, Value.echo, Json.echoMembers_eq_map, List.map_map]
  rfl

/-- The members of a body in the order of their names. -/
theorem sortEntries_members {a b c d e g h i j : Value} :
    sortEntries [("event_id", a), ("event_version", b), ("aggregate_type", c), ("aggregate_id", d), ("event_type", e),
        ("occurred_at", g), ("attempt", h), ("headers", i), ("payload", j)] =
      [("aggregate_id", d), ("aggregate_type", c), ("attempt", h), ("event_id", a), ("event_type", e),
        ("event_version", b), ("headers", i), ("occurred_at", g), ("payload", j)] := by
  have hsorted : Ascending [("aggregate_id", d), ("aggregate_type", c), ("attempt", h), ("event_id", a),
      ("event_type", e), ("event_version", b), ("headers", i), ("occurred_at", g), ("payload", j)] := by
    have hnames : ["aggregate_id", "aggregate_type", "attempt", "event_id", "event_type", "event_version", "headers",
        "occurred_at", "payload"].Pairwise (· < ·) := by decide +kernel
    exact List.pairwise_map.1 hnames
  -- where each of the sorted members was written
  have hplaces : [3, 2, 6, 0, 4, 1, 7, 5, 8].Perm [0, 1, 2, 3, 4, 5, 6, 7, 8] := by decide
  let written := [("event_id", a), ("event_version", b), ("aggregate_type", c), ("aggregate_id", d), ("event_type", e),
    ("occurred_at", g), ("attempt", h), ("headers", i), ("payload", j)]
  exact hsorted.eq_sortEntries (hplaces.map fun place => written.getD place default)

theorem echo_toJson (f : Numeral → Numeral) (m : Message) : m.toJson.echo f = .object [
    ("aggregate_id", .string m.aggregateId), ("aggregate_type", .string m.aggregateType),
    ("attempt", .number (f (.integer m.attempt))), ("event_id", .number (f (.integer m.eventId))),
    ("event_type", .string m.kind), ("event_version", .number (f (.integer m.version))),
    ("headers", .object (sortEntries (m.headers.map fun (name, text) => (name, .string text)))),
    ("occurred_at", momentValue m.occurredAt), ("payload", m.payload.echo f)] := by
  simp only [toJson, Value.echo, Json.echoMembers, momentValue, echo_headersValue, sortEntries_members]

/-! ### The body as bytes -/

/-- The numbers of a body are read if those of the payload are. -/
theorem readsNumber_toJson (hr : r.IsStorable) (hf : ∀ n, Json.IsStored n → f (.integer n) = .integer n)
    (hpayload : payload.AllNumbers fun n => Json.ReadsNumber (Utf8.encode n.write) (f n)) :
    (ofPayload r payload).toJson.AllNumbers fun n => Json.ReadsNumber (Utf8.encode n.write) (f n) := by
  have hinteger (n : Int) (hn : Json.IsStored n) :
      Json.ReadsNumber (Utf8.encode (Numeral.write (.integer n))) (f (.integer n)) :=
    (hf n hn).symm ▸ Json.readsNumber_integer hn
  obtain ⟨hid, hversion, hattempt, -⟩ := hr
  refine allNumbers_toJson (hinteger r.id ?_) (hinteger r.event.version ?_) (hinteger r.attempt ?_) hpayload
  all_goals
    rw [Json.IsStored]
    omega

/-- The body is read as an object of its members in the order of their names, or not at all. -/
theorem parse_body (hr : r.IsStorable) (hf : ∀ n, Json.IsStored n → f (.integer n) = .integer n)
    (hpayload : payload.AllNumbers fun n => Json.ReadsNumber (Utf8.encode n.write) (f n)) :
    let text := Utf8.ofString (ofPayload r payload).text
    (payload.depth ≤ 126 → Json.parse text = .ok ((ofPayload r payload).toJson.echo f)) ∧
    (¬payload.depth ≤ 126 → ∃ e, Json.parse text = .error e) := by
  intro text
  have htext : text = Utf8.encode (ofPayload r payload).toJson.writeChars := Utf8.ofString_ofList _
  have hdepth : (ofPayload r payload).toJson.depth ≤ Json.deepest ↔ payload.depth ≤ 126 :=
    depth_toJson_le_iff _ (by decide)
  rw [htext, ← hdepth]
  exact Json.parse_encode (readsNumber_toJson hr hf hpayload)

/-! ### The body as a record -/

/-- The members of a message as a reader takes them, if `f` is what it takes the numbers of the payload for. -/
def slots (f : Numeral → Numeral) (r : Row) (payload : Value) : List Json.Slot := [
  ⟨"event_id", integerRange64, .number (.integer r.id), True, .integer r.id⟩,
  ⟨"event_version", integerRange32, .number (.integer r.event.version), True, .integer r.event.version⟩,
  ⟨"aggregate_type", .text, .string r.event.aggregateType, True, .text r.event.aggregateType⟩,
  ⟨"aggregate_id", .text, .string r.event.aggregateId, True, .text r.event.aggregateId⟩,
  ⟨"event_type", .text, .string r.event.kind, True, .text r.event.kind⟩,
  ⟨"occurred_at", .moment, momentValue r.event.createdAt, True, .moment r.event.createdAt⟩,
  ⟨"attempt", integerRange32, .number (.integer r.attempt), True, .integer r.attempt⟩,
  ⟨"headers", .textMap, headersValue r.event.headers, True, .textMap (sortEntries r.event.headers)⟩,
  ⟨"payload", .any, payload, payload.depth ≤ 126, .any (payload.echo f)⟩]

theorem isReadable_slots (hr : r.IsStorable)
    (hpayload : payload.AllNumbers fun n => Json.ReadsNumber (Utf8.encode n.write) (f n)) :
    ∀ s ∈ slots f r payload, s.IsReadable := by
  simp only [slots, List.forall_mem_cons]
  exact ⟨Json.Slot.isReadable_integer hr.id (by decide) (by decide) _,
    Json.Slot.isReadable_integer hr.version (by decide) (by decide) _, Json.reads_text _, Json.reads_text _,
    Json.reads_text _, Json.reads_moment _, Json.Slot.isReadable_integer hr.attempt (by decide) (by decide) _,
    Json.reads_textMap _, Json.reads_any payload hpayload, List.forall_mem_nil _⟩

/-- The body is read as the message, with its headers in the order of their names, or not at all. -/
theorem parse_text (hr : r.IsStorable)
    (hpayload : payload.AllNumbers fun n => Json.ReadsNumber (Utf8.encode n.write) (f n)) :
    let text := Utf8.ofString (ofPayload r payload).text
    (payload.depth ≤ 126 → parse text =
      .ok { ofPayload r payload with headers := sortEntries r.event.headers, payload := payload.echo f }) ∧
    (¬payload.depth ≤ 126 → ∃ e, parse text = .error e) := by
  intro text
  have hnames : ((slots f r payload).map Json.Slot.name).Nodup := (by decide : (fields.map Prod.fst).Nodup)
  have hfits : (∀ s ∈ slots f r payload, s.fits) ↔ payload.depth ≤ 126 := by simp [slots]
  obtain ⟨hread, hunread⟩ := Json.parseRecord_encode hnames (isReadable_slots hr hpayload)
  rw [hfits] at hread hunread
  have htext : text = Utf8.encode (Value.object ((slots f r payload).map fun s => (s.name, s.value))).writeChars :=
    Utf8.ofString_ofList _
  have hfields : fields = (slots f r payload).map fun s => (s.name, s.kind) := rfl
  refine ⟨fun hdepth => ?_, fun hdepth => ?_⟩
  · rw [parse, hfields, htext, hread hdepth]
    rfl
  · obtain ⟨e, he⟩ := hunread hdepth
    rw [parse, hfields, htext, he]
    exact ⟨e, rfl⟩

/-! ### Events -/

/-- The body of a message is read as an object of nine members with the fields of the event, its time as text, and the
value that its payload holds. -/
theorem body_holds_event (hr : r.IsStorable) (hpayload : Json.parse r.event.payload = .ok payload)
    (hnumbers : payload.AllNumbers fun n => ∃ i, n = .integer i ∧ Json.IsStored i) (hdepth : payload.depth ≤ 126) :
    ∃ m headers, ofRow r = .ok m ∧ headers.Perm (r.event.headers.map fun (name, text) => (name, Value.string text)) ∧
      Json.parse (Utf8.ofString m.text) = .ok (.object [
        ("aggregate_id", .string r.event.aggregateId), ("aggregate_type", .string r.event.aggregateType),
        ("attempt", .number (.integer r.attempt)), ("event_id", .number (.integer r.id)),
        ("event_type", .string r.event.kind), ("event_version", .number (.integer r.event.version)),
        ("headers", .object headers), ("occurred_at", .string (Timestamp.write r.event.createdAt)),
        ("payload", payload)]) := by
  have hreads : payload.AllNumbers fun n => Json.ReadsNumber (Utf8.encode n.write) (id n) := by
    refine hnumbers.imp ?_
    rintro _ ⟨i, rfl, hi⟩
    exact Json.readsNumber_integer hi
  have hecho : payload.echo id = payload :=
    (Json.isRead_of_parse hpayload).echo_eq id (hnumbers.imp fun _ _ => rfl)
  have hbody := (parse_body hr (fun _ _ => rfl) hreads).1 hdepth
  rw [echo_toJson, ofPayload, hecho] at hbody
  refine ⟨_, _, ofRow_of_parse hpayload, Json.sortEntries_perm ?_, hbody⟩
  rw [List.map_map]
  exact hr.headers

/-- A row with characters of every kind in its texts, and the ends of the range of integers in its payload. -/
def spelled : Row where
  event := { id := 7, aggregateType := "Or\"der", aggregateId := "a\\b/\x00", kind := "Placed\t\n😀"
             payload := Utf8.ofString
              "\x7b\"k\\n😀\": [1, -9223372036854775808, 18446744073709551615, \"\\\"\\u0000\"], \"a\": null\x7d"
             headers := [("tracé\r", "\x1f\x7f"), ("b", "😀\"\\")], createdAt := .epoch }
  attempt := 1
  updatedAt := .epoch
  nextRetryAt := .epoch

def spelledPayload : Value := .object [("a", .null), ("k\n😀", .array [.number (.integer 1),
  .number (.integer (-9223372036854775808)), .number (.integer 18446744073709551615), .string "\"\x00"])]

theorem spelled_isStorable : spelled.IsStorable := ⟨by decide, by decide, by decide, by decide⟩

theorem parse_spelled : Json.parse spelled.event.payload = .ok spelledPayload := by
  have hread : Json.readValue Json.deepest spelled.event.payload = .ok (.object (sortEntries [
      ("k\n😀", .array [.number (.integer 1), .number (.integer (-9223372036854775808)),
        .number (.integer 18446744073709551615), .string "\"\x00"]),
      ("a", .null)]), []) := by with_unfolding_all rfl
  rw [Json.sortEntries_pair (by decide)] at hread
  rw [Json.parse, hread]
  rfl

theorem spelled_body_holds : ∃ m headers, ofRow spelled = .ok m ∧
    headers.Perm [("tracé\r", Value.string "\x1f\x7f"), ("b", .string "😀\"\\")] ∧
    Json.parse (Utf8.ofString m.text) = .ok (.object [
      ("aggregate_id", .string "a\\b/\x00"), ("aggregate_type", .string "Or\"der"),
      ("attempt", .number (.integer 1)), ("event_id", .number (.integer 7)), ("event_type", .string "Placed\t\n😀"),
      ("event_version", .number (.integer 1)), ("headers", .object headers),
      ("occurred_at", .string (Timestamp.write spelled.event.createdAt)), ("payload", spelledPayload)]) :=
  body_holds_event spelled_isStorable parse_spelled
    ⟨trivial, ⟨⟨_, rfl, by decide, by decide⟩, ⟨_, rfl, by decide, by decide⟩, ⟨_, rfl, by decide, by decide⟩, trivial,
      trivial⟩, trivial⟩ (by decide)

/-- A payload that is read is nested at most 127 deep. The body around it is read, by any reader of JSON and as a
message, if it is nested less deep than that. -/
theorem body_read_iff (hr : r.IsStorable) (hm : ofRow r = .ok m) :
    m.payload.depth ≤ 127 ∧ ((∃ v, Json.parse (Utf8.ofString m.text) = .ok v) ↔ m.payload.depth ≤ 126) ∧
      ((∃ m', parse (Utf8.ofString m.text) = .ok m') ↔ m.payload.depth ≤ 126) := by
  obtain ⟨payload, hpayload, rfl⟩ := exists_of_ofRow hm
  have hread := Json.isRead_of_parse hpayload
  obtain ⟨f, hproper, hinteger⟩ := Json.exists_echo
  have hnumbers := hread.numbers.imp hproper
  exact ⟨hread.depth_le, exists_ok_iff (parse_body hr hinteger hnumbers), exists_ok_iff (parse_text hr hnumbers)⟩

/-- The row with all kinds of characters is read as a message. -/
theorem spelled_body_read : (∃ m, ofRow spelled = .ok m) ∧ ∀ m, ofRow spelled = .ok m →
    ∃ m', parse (Utf8.ofString m.text) = .ok m' := by
  have hspelled := ofRow_of_parse parse_spelled
  refine ⟨⟨_, hspelled⟩, fun m hm => (body_read_iff spelled_isStorable hm).2.2.2 ?_⟩
  rw [hspelled] at hm
  cases hm
  decide

/-! ### Nested payloads -/

/-- A list in so many lists. -/
def nested : Nat → Value
  | 0 => .array []
  | n + 1 => .array [nested n]

theorem depth_nested (n : Nat) : (nested n).depth = n + 1 := by
  induction n with
  | zero => rfl
  | succ n ih => rw [nested, Value.depth, Json.itemsDepth, Json.itemsDepth, ih, Nat.max_zero]

theorem allNumbers_nested (p : Numeral → Prop) (n : Nat) : (nested n).AllNumbers p := by
  induction n with
  | zero => trivial
  | succ n ih => exact ⟨ih, trivial⟩

theorem echo_nested (f : Numeral → Numeral) (n : Nat) : (nested n).echo f = nested n := by
  induction n with
  | zero => rfl
  | succ n ih => rw [nested, Value.echo, Json.echoItems, ih, Json.echoItems]

/-- A row whose payload is a list in 126 lists. -/
def heaped : Row where
  event := { id := 1, aggregateType := "Order", aggregateId := "agg", kind := "Happened"
             payload := Utf8.encode (nested 126).writeChars, createdAt := .epoch }
  updatedAt := .epoch
  nextRetryAt := .epoch

/-- The payload is read, but neither reader takes the body with the payload in it. -/
theorem heaped_body_unread : heaped.IsStorable ∧ ∃ m, ofRow heaped = .ok m ∧
    (¬∃ v, Json.parse (Utf8.ofString m.text) = .ok v) ∧ ¬∃ m', parse (Utf8.ofString m.text) = .ok m' := by
  have hstorable : heaped.IsStorable := ⟨by decide, by decide, by decide, by decide⟩
  have hdepth := depth_nested 126
  have hnumbers := allNumbers_nested (fun n => Json.ReadsNumber (Utf8.encode n.write) (id n)) 126
  have hpayload : Json.parse heaped.event.payload = .ok (nested 126) :=
    ((Json.parse_encode hnumbers).1 (by rw [hdepth]; decide)).trans (congrArg Except.ok (echo_nested id 126))
  have htoo : ¬(nested 126).depth ≤ 126 := by omega
  refine ⟨hstorable, _, ofRow_of_parse hpayload, ?_, ?_⟩
  · rwa [exists_ok_iff (parse_body hstorable (fun _ _ => rfl) hnumbers)]
  · rwa [exists_ok_iff (parse_text hstorable hnumbers)]

end Message

end Outbox
