import Outbox.Postgres.Statement
import Outbox.Proofs.Bytes.Boundaries
import Outbox.Proofs.Store.Causes
import Outbox.Proofs.Store.Lookup

/-! The text of an error in its bytes. What is kept of it ends at the last boundary of a character that is near enough,
and a search backwards from the last byte that may be kept finds that boundary at once. Marks of failures write this
text and no other. -/

namespace Outbox

namespace Cause

/-- The longest prefix that has room ends at the last boundary up to there. -/
theorem isGreatest_takeBytes (room : Nat) (cs : List Char) :
    IsGreatest {i | Utf8.isBoundary (Utf8.encode cs) i ∧ i ≤ room} (String.utf8Len (takeBytes room cs)) := by
  refine ⟨⟨Utf8.isBoundary_encode_iff.2 ⟨_, takeBytes_isPrefix room cs, rfl⟩, utf8Len_takeBytes_le room cs⟩, ?_⟩
  rintro i ⟨hboundary, hle⟩
  obtain ⟨l, hl, rfl⟩ := Utf8.isBoundary_encode_iff.1 hboundary
  exact String.utf8Len_le_of_prefix ((prefix_takeBytes_iff room hl).2 hle)

/-- The text of an error in its bytes, cut where a search backwards from the last byte that may be kept ends. There is
no answer if the search leaves the bytes or ends within a character. -/
def searched? (cause : String) : Option String :=
  let bytes := Utf8.ofString cause
  if bytes.length ≤ maxBytes then some cause else (Utf8.boundary? bytes maxBytes).bind (Utf8.slice? bytes)

theorem slice?_truncate (cause : String) :
    Utf8.boundary? (Utf8.ofString cause) maxBytes = some (truncate cause).utf8ByteSize ∧
      Utf8.slice? (Utf8.ofString cause) (truncate cause).utf8ByteSize = some (truncate cause) := by
  rw [Utf8.ofString_eq_encode, truncate, String.utf8ByteSize_ofList]
  exact ⟨Utf8.boundary?_eq_of_isGreatest (isGreatest_takeBytes maxBytes _), Utf8.slice?_encode (takeBytes_isPrefix _ _)⟩

theorem searched?_eq (cause : String) : searched? cause = some (truncate cause) := by
  rw [searched?]
  split
  · next hle =>
    rw [Utf8.length_ofString] at hle
    rw [truncate_of_le hle]
  · obtain ⟨hfound, hslice⟩ := slice?_truncate cause
    rw [hfound, Option.bind_some, hslice]

/-- A text is kept as it is if it is short, and else but for less than one character. -/
theorem short_or_full (cause : String) :
    cause.utf8ByteSize ≤ 2000 ∧ truncate cause = cause ∨
      2000 < cause.utf8ByteSize ∧ 1997 ≤ (truncate cause).utf8ByteSize := by
  rcases Nat.lt_or_ge 2000 cause.utf8ByteSize with hlt | hle
  · have hroom : maxBytes < String.utf8Len cause.toList := by rwa [String.utf8Len_toList]
    have hfull : 2000 ≤ String.utf8Len (takeBytes maxBytes cause.toList) + 3 := le_utf8Len_takeBytes hroom
    rw [truncate, String.utf8ByteSize_ofList]
    exact .inr ⟨hlt, by omega⟩
  · exact .inl ⟨hle, truncate_of_le hle⟩

end Cause

/-! ### The error of a row -/

namespace Table

/-- A change of the row of an id, if that is being sent, shows in the error that is kept with it. -/
theorem lastError_settle (t : Table) (id other : Int) {f : Row → Row} {error : Option String}
    (keeps : ∀ r, (f r).id = r.id) (hf : ∀ r, (f r).lastError = error) :
    let found := (t.settle id f keeps).2.find? other
    if (t.find? other).any (·.isSendingAs id) then found.map Row.lastError = some error else found = t.find? other := by
  intro found
  have hfound : found = (t.find? other).map fun r => if r.isSendingAs id then f r else r := t.find?_settle other id f keeps
  rw [hfound]
  cases t.find? other with
  | none => rfl
  | some r =>
    rw [Option.any_some, Option.map_some]
    split
    · rw [Option.map_some, hf]
    · rfl

theorem lastError_failures (t : Table) (id other : Int) (cause : String) (delay : Span) (now : Instant) :
    let failed := (t.markFailed id cause delay now).2.find? other
    let dead := (t.markDead id cause now).2.find? other
    if (t.find? other).any (·.isSendingAs id) then
      failed.map Row.lastError = some (some (Cause.truncate cause)) ∧
        dead.map Row.lastError = some (some (Cause.truncate cause))
    else failed = t.find? other ∧ dead = t.find? other := by
  intro failed dead
  have hfailed := t.lastError_settle id other (fun r => r.id_failed cause delay now) fun _ => rfl
  have hdead := t.lastError_settle id other (fun r => r.id_deadLettered cause now) fun _ => rfl
  split
  · next hsending =>
    rw [if_pos hsending] at hfailed hdead
    exact ⟨hfailed, hdead⟩
  · next hother =>
    rw [if_neg hother] at hfailed hdead
    exact ⟨hfailed, hdead⟩

theorem lastError_markPublished (t : Table) (ids : List Int) (other : Int) (now : Instant) :
    let published := (t.markPublished now ids).2.find? other
    published = t.find? other ∨ published.map Row.lastError = some none := by
  intro published
  have hpublished : published = _ := t.find?_markPublished now ids other
  rw [hpublished]
  cases t.find? other with
  | none => exact .inl rfl
  | some r =>
    rw [Option.map_some]
    split
    · exact .inr rfl
    · exact .inl rfl

end Table

/-- What is kept of an error. Its bytes are those of the whole text up to the last boundary within 2000 bytes, and
every prefix of whole characters that has no more bytes is a prefix of it. A text that is short enough is kept as it
is. In any other a search backwards from byte 2000 meets that boundary within three bytes, the text can be cut there,
and what comes before is what is kept. To cut a text again changes nothing. A mark of a failure in a table leaves the
text with the row of the id if that is being sent, and changes no other; a mark of a delivery leaves none. An update in
the database is given the same text. It can be read from its bytes, of which there are at most 2000. -/
theorem Cause.kept_is_longest (cause : String) :
    let bytes := Utf8.ofString cause
    let kept := truncate cause
    (IsGreatest {place | Utf8.isBoundary bytes place ∧ place ≤ 2000} kept.utf8ByteSize ∧
      Utf8.ofString kept = bytes.take kept.utf8ByteSize ∧ IsCut cause kept) ∧
    (bytes.length ≤ 2000 ∧ kept = cause ∨
      2000 < bytes.length ∧ 1997 ≤ kept.utf8ByteSize ∧ Utf8.boundary? bytes 2000 = some kept.utf8ByteSize ∧
        Utf8.slice? bytes kept.utf8ByteSize = some kept) ∧
    searched? cause = some kept ∧ truncate kept = kept ∧
    Utf8.decode (Utf8.ofString kept) = .ok kept ∧ (Utf8.ofString kept).length ≤ 2000 ∧
    (∀ (t : Table) (id other : Int) (delay : Span) (now : Instant),
      let failed := (t.markFailed id cause delay now).2.find? other
      let dead := (t.markDead id cause now).2.find? other
      if (t.find? other).any (·.isSendingAs id) then
        failed.map Row.lastError = some (some kept) ∧ dead.map Row.lastError = some (some kept)
      else failed = t.find? other ∧ dead = t.find? other) ∧
    (∀ (t : Table) (ids : List Int) (other : Int) (now : Instant),
      let published := (t.markPublished now ids).2.find? other
      published = t.find? other ∨ published.map Row.lastError = some none) ∧
    ∀ (id : Int) (delay : Span) (now : Instant),
      (Postgres.Statement.markFailed id cause delay now).parameters =
        [.integer id, .text kept, .ofInstant now, .ofInstant (now.after delay)] ∧
      (Postgres.Statement.markDead id cause now).parameters = [.integer id, .text kept, .ofInstant now] := by
  intro bytes kept
  have hbytes : bytes = Utf8.encode cause.toList := Utf8.ofString_eq_encode cause
  have hcut : IsCut cause kept := isCut_truncate cause
  have hkept : kept.utf8ByteSize = String.utf8Len kept.toList := (String.utf8Len_toList kept).symm
  have hgreatest : IsGreatest {place | Utf8.isBoundary bytes place ∧ place ≤ 2000} kept.utf8ByteSize := by
    rw [hbytes, show kept.utf8ByteSize = _ from String.utf8ByteSize_ofList _]
    exact isGreatest_takeBytes maxBytes cause.toList
  obtain ⟨hfound, hslice⟩ := slice?_truncate cause
  refine ⟨⟨hgreatest, ?_, hcut⟩, ?_, searched?_eq cause, truncate_truncate cause, ?_, ?_,
    fun t id other delay now => t.lastError_failures id other cause delay now,
    fun t ids other now => t.lastError_markPublished ids other now, fun _ _ _ => ⟨rfl, rfl⟩⟩
  · rw [hbytes, hkept, Utf8.take_encode hcut.1, Utf8.ofString_eq_encode]
  · rw [Utf8.length_ofString]
    exact (short_or_full cause).imp_right fun ⟨hlong, hfull⟩ => ⟨hlong, hfull, hfound, hslice⟩
  · exact Utf8.decode_eq_ok_iff.2 rfl
  · rw [Utf8.length_ofString]
    exact utf8ByteSize_truncate_le cause

end Outbox
