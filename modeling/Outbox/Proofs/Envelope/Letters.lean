import Outbox.Proofs.Bytes.Lossy
import Outbox.Proofs.Envelope.Decoding

/-! What readers of the dead-letter topic receive. A dead letter is read whatever the payload, the texts and the error
of its event hold: as an object of its ten members, and as a letter. The payload is kept in it as text; its bytes are
those of the payload if and only if the payload is text. -/

namespace Outbox.DeadLetter

open Json (Value Numeral sortEntries Ascending)

variable {r : Row}

/-! ### The letter as a value -/

theorem depth_toJson (d : DeadLetter) : d.toJson.depth = 2 := by
  simp [toJson, Value.depth, Json.membersDepth, momentValue, Message.depth_headersValue]

theorem allNumbers_toJson {p : Numeral → Prop} {d : DeadLetter} (hid : p (.integer d.eventId))
    (hattempt : p (.integer d.attempt)) : d.toJson.AllNumbers p := by
  simp [toJson, Value.AllNumbers, Json.MembersAllNumbers, momentValue, hid, hattempt, Message.allNumbers_headersValue]

/-- The members of a letter in the order of their names. -/
theorem sortEntries_members {a b c d e f g h i j : Value} :
    sortEntries [("event_id", a), ("aggregate_type", b), ("aggregate_id", c), ("event_type", d), ("attempt_count", e),
        ("error", f), ("first_created_at", g), ("dead_lettered_at", h), ("headers", i), ("raw_payload", j)] =
      [("aggregate_id", c), ("aggregate_type", b), ("attempt_count", e), ("dead_lettered_at", h), ("error", f),
        ("event_id", a), ("event_type", d), ("first_created_at", g), ("headers", i), ("raw_payload", j)] := by
  have hsorted : Ascending [("aggregate_id", c), ("aggregate_type", b), ("attempt_count", e), ("dead_lettered_at", h),
      ("error", f), ("event_id", a), ("event_type", d), ("first_created_at", g), ("headers", i), ("raw_payload", j)] := by
    have hnames : ["aggregate_id", "aggregate_type", "attempt_count", "dead_lettered_at", "error", "event_id",
        "event_type", "first_created_at", "headers", "raw_payload"].Pairwise (· < ·) := by decide +kernel
    exact List.pairwise_map.1 hnames
  -- where each of the sorted members was written
  have hplaces : [2, 1, 4, 7, 5, 0, 3, 6, 8, 9].Perm [0, 1, 2, 3, 4, 5, 6, 7, 8, 9] := by decide
  let written := [("event_id", a), ("aggregate_type", b), ("aggregate_id", c), ("event_type", d), ("attempt_count", e),
    ("error", f), ("first_created_at", g), ("dead_lettered_at", h), ("headers", i), ("raw_payload", j)]
  exact hsorted.eq_sortEntries (hplaces.map fun place => written.getD place default)

theorem echo_toJson (d : DeadLetter) : d.toJson.echo id = .object [
    ("aggregate_id", .string d.aggregateId), ("aggregate_type", .string d.aggregateType),
    ("attempt_count", .number (.integer d.attempt)), ("dead_lettered_at", momentValue d.deadAt),
    ("error", .string d.cause), ("event_id", .number (.integer d.eventId)), ("event_type", .string d.kind),
    ("first_created_at", momentValue d.createdAt),
    ("headers", .object (sortEntries (d.headers.map fun (name, text) => (name, .string text)))),
    ("raw_payload", .string d.payload)] := by
  simp only [toJson, Value.echo, Json.echoMembers, momentValue, Message.echo_headersValue, sortEntries_members, id]

theorem parse_text_eq_echo (hr : r.IsStorable) (cause : String) (now : Instant) :
    Json.parse (Utf8.ofString (ofRow r cause now).text) = .ok ((ofRow r cause now).toJson.echo id) := by
  obtain ⟨hid, -, hattempt, -⟩ := hr
  refine Json.parse_write (allNumbers_toJson ⟨r.id, rfl, ?_⟩ ⟨r.attempt, rfl, ?_⟩) ?_
  · rw [Json.IsStored]
    omega
  · rw [Json.IsStored]
    omega
  · rw [depth_toJson]
    decide

/-! ### The letter as a record -/

/-- The members of a letter as a reader takes them. -/
def slots (r : Row) (cause : String) (now : Instant) : List Json.Slot := [
  ⟨"event_id", integerRange64, .number (.integer r.id), True, .integer r.id⟩,
  ⟨"aggregate_type", .text, .string r.event.aggregateType, True, .text r.event.aggregateType⟩,
  ⟨"aggregate_id", .text, .string r.event.aggregateId, True, .text r.event.aggregateId⟩,
  ⟨"event_type", .text, .string r.event.kind, True, .text r.event.kind⟩,
  ⟨"attempt_count", integerRange32, .number (.integer r.attempt), True, .integer r.attempt⟩,
  ⟨"error", .text, .string cause, True, .text cause⟩,
  ⟨"first_created_at", .moment, momentValue r.event.createdAt, True, .moment r.event.createdAt⟩,
  ⟨"dead_lettered_at", .moment, momentValue now, True, .moment now⟩,
  ⟨"headers", .textMap, headersValue r.event.headers, True, .textMap (sortEntries r.event.headers)⟩,
  ⟨"raw_payload", .text, .string (Utf8.decodeLossy r.event.payload), True, .text (Utf8.decodeLossy r.event.payload)⟩]

theorem isReadable_slots (hr : r.IsStorable) (cause : String) (now : Instant) :
    ∀ s ∈ slots r cause now, s.IsReadable := by
  simp only [slots, List.forall_mem_cons]
  exact ⟨Json.Slot.isReadable_integer hr.id (by decide) (by decide) _, Json.reads_text _, Json.reads_text _,
    Json.reads_text _, Json.Slot.isReadable_integer hr.attempt (by decide) (by decide) _, Json.reads_text _,
    Json.reads_moment _, Json.reads_moment _, Json.reads_textMap _, Json.reads_text _, List.forall_mem_nil _⟩

theorem parse_text (hr : r.IsStorable) (cause : String) (now : Instant) :
    parse (Utf8.ofString (ofRow r cause now).text) =
      .ok { ofRow r cause now with headers := sortEntries r.event.headers } := by
  have hnames : ((slots r cause now).map Json.Slot.name).Nodup := (by decide : (fields.map Prod.fst).Nodup)
  have hfits : ∀ s ∈ slots r cause now, s.fits := by simp [slots]
  have hread := (Json.parseRecord_encode hnames (isReadable_slots hr cause now)).1 hfits
  have htext : Utf8.ofString (ofRow r cause now).text =
      Utf8.encode (Value.object ((slots r cause now).map fun s => (s.name, s.value))).writeChars := Utf8.ofString_ofList _
  have hfields : fields = (slots r cause now).map fun s => (s.name, s.kind) := rfl
  rw [parse, hfields, htext, hread]
  rfl

/-! ### Events that were given up -/

/-- A dead letter is read as an object of ten members with the fields of the event, its time and the time of the letter
as text, the whole error and the payload as text; and as the letter itself with its headers in the order of their names.
The text has the bytes of the payload if and only if the payload is text, and then no other payload that is text has the
same one. -/
theorem letter_holds_event (hr : r.IsStorable) (cause : String) (now : Instant) :
    let text := Utf8.ofString (ofRow r cause now).text
    let kept := Utf8.decodeLossy r.event.payload
    (∃ headers, headers.Perm (r.event.headers.map fun (name, text) => (name, Value.string text)) ∧
      Json.parse text = .ok (.object [
        ("aggregate_id", .string r.event.aggregateId), ("aggregate_type", .string r.event.aggregateType),
        ("attempt_count", .number (.integer r.attempt)), ("dead_lettered_at", .string (Timestamp.write now)),
        ("error", .string cause), ("event_id", .number (.integer r.id)), ("event_type", .string r.event.kind),
        ("first_created_at", .string (Timestamp.write r.event.createdAt)), ("headers", .object headers),
        ("raw_payload", .string kept)])) ∧
    parse text = .ok { ofRow r cause now with headers := sortEntries r.event.headers } ∧
    (Utf8.ofString kept = r.event.payload ↔ ∃ s, Utf8.decode r.event.payload = .ok s) ∧
    ∀ other : Bytes, (∃ s, Utf8.decode r.event.payload = .ok s) → (∃ s, Utf8.decode other = .ok s) →
      kept = Utf8.decodeLossy other → r.event.payload = other := by
  intro text kept
  have hkept := @Utf8.ofString_decodeLossy_iff r.event.payload
  refine ⟨⟨_, Json.sortEntries_perm ?_, ?_⟩, parse_text hr cause now, hkept, fun other hvalid hother heq => ?_⟩
  · rw [List.map_map]
    exact hr.headers
  · exact (parse_text_eq_echo hr cause now).trans (congrArg Except.ok (echo_toJson _))
  · calc r.event.payload
      _ = Utf8.ofString kept := (hkept.2 hvalid).symm
      _ = Utf8.ofString (Utf8.decodeLossy other) := by rw [heq]
      _ = other := Utf8.ofString_decodeLossy_iff.2 hother

/-- A row whose payload breaks off in a character, after a surrogate and a zero that is written too long. -/
def torn : Row where
  event := { id := 7, aggregateType := "Or\"der", aggregateId := "a\\b/\x00", kind := "Placed\t\n😀"
             payload := [34, 0xED, 0xA0, 0x80, 0xC0, 0x80, 0xC3, 0xA9, 0xF0, 0x9F, 0x98]
             headers := [("tracé\r", "\x1f\x7f"), ("b", "😀\"\\")], createdAt := .epoch }
  attempt := 3
  updatedAt := .epoch
  nextRetryAt := .epoch

theorem torn_isStorable : torn.IsStorable := ⟨by decide, by decide, by decide, by decide⟩

theorem torn_letter_holds : ∃ headers,
    headers.Perm [("tracé\r", Value.string "\x1f\x7f"), ("b", .string "😀\"\\")] ∧
    Json.parse (Utf8.ofString (ofRow torn "no \"JSON\"\n" .epoch).text) = .ok (.object [
      ("aggregate_id", .string "a\\b/\x00"), ("aggregate_type", .string "Or\"der"),
      ("attempt_count", .number (.integer 3)), ("dead_lettered_at", .string (Timestamp.write Instant.epoch)),
      ("error", .string "no \"JSON\"\n"), ("event_id", .number (.integer 7)), ("event_type", .string "Placed\t\n😀"),
      ("first_created_at", .string (Timestamp.write Instant.epoch)), ("headers", .object headers),
      ("raw_payload", .string "\"\uFFFD\uFFFD\uFFFD\uFFFD\uFFFDé\uFFFD")]) := by
  have hkept : Utf8.decodeLossy torn.event.payload = "\"\uFFFD\uFFFD\uFFFD\uFFFD\uFFFDé\uFFFD" := by decide +kernel
  obtain ⟨headers, hperm, hparse⟩ := (letter_holds_event torn_isStorable "no \"JSON\"\n" .epoch).1
  rw [hkept] at hparse
  exact ⟨headers, hperm, hparse⟩

end Outbox.DeadLetter
