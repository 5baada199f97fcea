import Mathlib.Data.String.Basic
import Outbox.Store.Cause

/-! The text of an error as it is kept. It is a prefix of the whole text, and every prefix that is short enough is a
prefix of it. So a short text is kept as it is, and of a long one all is kept but for less than one character. -/

namespace Outbox.Cause

theorem utf8Len_takeBytes_le (room : Nat) (cs : List Char) : String.utf8Len (takeBytes room cs) ≤ room := by
  induction cs generalizing room with
  | nil => simp [takeBytes]
  | cons c cs ih =>
    rw [takeBytes]
    split
    · have := ih (room - c.utf8Size)
      simp only [String.utf8Len_cons]
      omega
    · simp

theorem utf8ByteSize_truncate_le (cause : String) : (truncate cause).utf8ByteSize ≤ 2000 := by
  rw [truncate, String.utf8ByteSize_ofList]
  exact utf8Len_takeBytes_le maxBytes cause.toList

/-- The prefixes of the cut text are the prefixes of the whole text that have at most 2000 bytes. -/
def IsCut (cause cut : String) : Prop :=
  cut.toList <+: cause.toList ∧ ∀ l, l <+: cause.toList → (l <+: cut.toList ↔ String.utf8Len l ≤ 2000)

theorem takeBytes_isPrefix (room : Nat) (cs : List Char) : takeBytes room cs <+: cs := by
  induction cs generalizing room with
  | nil => exact List.nil_prefix
  | cons c cs ih =>
    rw [takeBytes]
    split
    · exact List.cons_prefix_cons.2 ⟨rfl, ih _⟩
    · exact List.nil_prefix

theorem prefix_takeBytes_iff {cs l : List Char} (room : Nat) (h : l <+: cs) :
    l <+: takeBytes room cs ↔ String.utf8Len l ≤ room := by
  induction l generalizing cs room with
  | nil => simp
  | cons c l ih =>
    obtain ⟨cs, rfl⟩ : ∃ cs', cs = c :: cs' := by
      obtain ⟨rest, rfl⟩ := h
      exact ⟨_, rfl⟩
    have hl := (List.cons_prefix_cons.1 h).2
    rw [takeBytes, String.utf8Len_cons]
    split
    · simp only [List.cons_prefix_cons, true_and, ih _ hl]
      omega
    · simp only [List.prefix_nil, reduceCtorEq, false_iff]
      omega

theorem isCut_truncate (cause : String) : IsCut cause (truncate cause) := by
  rw [IsCut, truncate, String.toList_ofList]
  exact ⟨takeBytes_isPrefix maxBytes _, fun _ h => prefix_takeBytes_iff maxBytes h⟩

theorem takeBytes_of_le {room : Nat} {cs : List Char} (h : String.utf8Len cs ≤ room) : takeBytes room cs = cs :=
  (takeBytes_isPrefix room cs).eq_of_length_le ((prefix_takeBytes_iff room List.prefix_rfl).2 h).length_le

/-- The room that is left is smaller than a character. -/
theorem le_utf8Len_takeBytes {room : Nat} {cs : List Char} (h : room < String.utf8Len cs) :
    room ≤ String.utf8Len (takeBytes room cs) + 3 := by
  obtain ⟨rest, hrest⟩ := takeBytes_isPrefix room cs
  cases rest with
  | nil =>
    have hle := utf8Len_takeBytes_le room cs
    rw [List.append_nil] at hrest
    rw [hrest] at hle
    omega
  | cons c rest =>
    have hnext : takeBytes room cs ++ [c] <+: cs := ⟨rest, by rw [List.append_assoc, List.singleton_append, hrest]⟩
    have hover : ¬String.utf8Len (takeBytes room cs ++ [c]) ≤ room := fun hle => by
      have hlength := ((prefix_takeBytes_iff room hnext).2 hle).length_le
      rw [List.length_append, List.length_singleton] at hlength
      omega
    have hsize := c.utf8Size_le_four
    rw [String.utf8Len_append, String.utf8Len_cons, String.utf8Len_nil] at hover
    omega

theorem truncate_of_le {cause : String} (h : cause.utf8ByteSize ≤ 2000) : truncate cause = cause := by
  have hfits : takeBytes maxBytes cause.toList = cause.toList := takeBytes_of_le (by rwa [String.utf8Len_toList])
  rw [truncate, hfits, String.ofList_toList]

theorem truncate_truncate (cause : String) : truncate (truncate cause) = truncate cause :=
  truncate_of_le (utf8ByteSize_truncate_le cause)

end Outbox.Cause
