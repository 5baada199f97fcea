import Mathlib.Data.String.Basic
import Mathlib.Order.Bounds.Basic
import Outbox.Proofs.Bytes.Lossy

/-! Where the characters of a text begin among its bytes. The boundaries are the lengths of the text's prefixes, and a
search backwards from any place meets the last of them up to there. A text that is cut at a boundary keeps whole
characters. -/

namespace Outbox

namespace Utf8

variable {bytes front back : Bytes} {place : Nat}

/-- Whether a character begins at a place, or the bytes end there. -/
def isBoundary (bytes : Bytes) (place : Nat) : Bool :=
  place == 0 || match bytes[place]? with
    | some b => !isContinuation b
    | none => place == bytes.length

/-- Where a search for a boundary ends that goes backwards from a place; none if it leaves the bytes. -/
def boundary? (bytes : Bytes) : (place : Nat) → Option Nat
  | 0 => if isBoundary bytes 0 then some 0 else none
  | place + 1 => if isBoundary bytes (place + 1) then some (place + 1) else boundary? bytes place

/-- The text of the bytes before a place; none unless the place is a boundary. -/
def slice? (bytes : Bytes) (place : Nat) : Option String :=
  if isBoundary bytes place then (decode (bytes.take place)).toOption else none

/-! ### Searches -/

/-- The search ends at the last boundary, since the start of the bytes is one. -/
theorem boundary?_isGreatest (bytes : Bytes) (place : Nat) :
    ∃ found, boundary? bytes place = some found ∧ IsGreatest {i | isBoundary bytes i ∧ i ≤ place} found := by
  induction place with
  | zero => exact ⟨0, rfl, ⟨rfl, Nat.le_refl _⟩, fun i hi => hi.2⟩
  | succ place ih =>
    rw [boundary?]
    by_cases hhere : isBoundary bytes (place + 1)
    · exact ⟨place + 1, if_pos hhere, ⟨hhere, Nat.le_refl _⟩, fun i hi => hi.2⟩
    · obtain ⟨found, hfound, ⟨hboundary, hle⟩, hlast⟩ := ih
      refine ⟨found, (if_neg hhere).trans hfound, ⟨hboundary, Nat.le_succ_of_le hle⟩, fun i hi => hlast ⟨hi.1, ?_⟩⟩
      have hne : i ≠ place + 1 := fun heq => hhere (heq ▸ hi.1)
      have := hi.2
      omega

theorem boundary?_eq_of_isGreatest {found : Nat} (h : IsGreatest {i | isBoundary bytes i ∧ i ≤ place} found) :
    boundary? bytes place = some found := by
  obtain ⟨last, hlast, hgreatest⟩ := boundary?_isGreatest bytes place
  rw [hlast, hgreatest.unique h]

/-! ### Characters -/

/-- Of the bytes of a character the first one is no continuation, and all others are. -/
theorem encodeChar_eq_cons (c : Char) :
    ∃ b tail, encodeChar c = b :: tail ∧ isContinuation b = false ∧ ∀ d ∈ tail, isContinuation d := by
  have hfirst {n : Nat} (hn : n < 128 ∨ 192 ≤ n) (hlt : n < 256) : isContinuation (UInt8.ofNat n) = false := by
    rw [Bool.eq_false_iff, ne_eq, isContinuation_iff, toNat_ofNat_of_lt hlt]
    omega
  have htop := toNat_lt_top c
  rcases encodeChar_cases c with ⟨hlt, heq⟩ | ⟨-, hlt, heq⟩ | ⟨-, hlt, heq⟩ | ⟨-, heq⟩
  · exact ⟨_, _, heq, hfirst (.inl hlt) (by omega), List.forall_mem_nil _⟩
  all_goals
    refine ⟨_, _, heq, hfirst (.inr (by omega)) (by omega), fun d hd => ?_⟩
    simp only [List.mem_cons, List.not_mem_nil, or_false] at hd
    rcases hd with rfl | rfl | rfl <;> exact isContinuation_follower _

theorem length_encode (cs : List Char) : (encode cs).length = String.utf8Len cs := by
  induction cs with
  | nil => rfl
  | cons c cs ih =>
    rw [encode_cons, List.length_append, ih, String.utf8Len_cons, Nat.add_comm, encodeChar, String.length_utf8EncodeChar]

theorem length_ofString (s : String) : (ofString s).length = s.utf8ByteSize := by
  rw [ofString_eq_encode, length_encode, String.utf8Len_toList]

theorem head?_encode (cs : List Char) : ∀ b ∈ (encode cs).head?, isContinuation b = false := by
  cases cs with
  | nil => simp [encode]
  | cons c cs =>
    obtain ⟨b, tail, heq, hb, -⟩ := encodeChar_eq_cons c
    simpa [encode_cons, heq] using hb

theorem isBoundary_append (hfront : front ≠ []) (hback : ∀ b ∈ back.head?, isContinuation b = false) (place : Nat) :
    isBoundary (front ++ back) (front.length + place) = isBoundary back place := by
  have hlength : 0 < front.length := List.length_pos_iff.2 hfront
  rw [isBoundary, isBoundary, List.getElem?_append_right (Nat.le_add_right _ _), Nat.add_sub_cancel_left,
    List.length_append]
  cases back with
  | nil => cases place <;> simp
  | cons b back =>
    cases place with
    | zero => simp [hback b rfl]
    | succ place =>
      rw [List.getElem?_cons_succ]
      cases back[place]? with
      | some d => simp
      | none =>
        rw [Bool.eq_iff_iff]
        simp only [Bool.or_eq_true, beq_iff_eq, List.length_cons]
        omega

/-- Within a character there is no boundary. -/
theorem isBoundary_encodeChar_append {c : Char} (hpos : 0 < place) (hlt : place < (encodeChar c).length) :
    isBoundary (encodeChar c ++ back) place = false := by
  obtain ⟨b, tail, heq, -, htail⟩ := encodeChar_eq_cons c
  obtain ⟨i, rfl⟩ : ∃ i, place = i + 1 := ⟨place - 1, by omega⟩
  have hi : i < tail.length := by
    rw [heq, List.length_cons] at hlt
    omega
  rw [isBoundary, heq, List.cons_append, List.getElem?_cons_succ, List.getElem?_append_left hi,
    List.getElem?_eq_getElem hi]
  simp [htail tail[i] (List.getElem_mem hi)]

/-- The boundaries of a text are the lengths of its prefixes. -/
theorem isBoundary_encode_iff {cs : List Char} :
    isBoundary (encode cs) place ↔ ∃ l, l <+: cs ∧ String.utf8Len l = place := by
  induction cs generalizing place with
  | nil =>
    simp only [isBoundary, encode, List.flatMap_nil, List.getElem?_nil, List.length_nil, Bool.or_self, beq_iff_eq,
      List.prefix_nil, exists_eq_left, String.utf8Len_nil]
    exact eq_comm
  | cons c cs ih =>
    have hsize : (encodeChar c).length = c.utf8Size := String.length_utf8EncodeChar c
    have hpos := c.utf8Size_pos
    rw [encode_cons]
    rcases Nat.eq_zero_or_pos place with rfl | hplace
    · exact ⟨fun _ => ⟨[], List.nil_prefix, rfl⟩, fun _ => rfl⟩
    -- a prefix that is not empty begins with the character
    have hfronts : (∃ l, l <+: c :: cs ∧ String.utf8Len l = place) ↔
        ∃ l, l <+: cs ∧ String.utf8Len l + c.utf8Size = place := by
      constructor
      · rintro ⟨l, hl, rfl⟩
        cases l with
        | nil => exact absurd hplace (Nat.lt_irrefl 0)
        | cons d l =>
          obtain ⟨rfl, hrest⟩ := List.cons_prefix_cons.1 hl
          exact ⟨l, hrest, rfl⟩
      · rintro ⟨l, hl, hlen⟩
        exact ⟨c :: l, List.cons_prefix_cons.2 ⟨rfl, hl⟩, hlen⟩
    rw [hfronts]
    rcases Nat.lt_or_ge place (encodeChar c).length with hlt | hge
    · rw [isBoundary_encodeChar_append hplace hlt]
      refine iff_of_false Bool.false_ne_true ?_
      rintro ⟨l, -, hlen⟩
      omega
    · obtain ⟨rest, rfl⟩ := Nat.exists_eq_add_of_le hge
      rw [isBoundary_append (List.length_pos_iff.1 (hsize ▸ hpos)) (head?_encode cs), ih, hsize]
      simp only [Nat.add_comm c.utf8Size, Nat.add_right_cancel_iff]

/-! ### Slices of a text -/

variable {cs l : List Char}

theorem take_encode (h : l <+: cs) : (encode cs).take (String.utf8Len l) = encode l := by
  obtain ⟨rest, rfl⟩ := h
  rw [encode_append, ← length_encode, List.take_left]

/-- A text can be cut after any of its prefixes. -/
theorem slice?_encode (h : l <+: cs) : slice? (encode cs) (String.utf8Len l) = some (String.ofList l) := by
  rw [slice?, if_pos (isBoundary_encode_iff.2 ⟨l, h, rfl⟩), take_encode h, decode_encode]
  rfl

/-- From within the last character the search goes back to where it begins. -/
example : boundary? (encode ['a', '€']) 3 = some 1 ∧ slice? (encode ['a', '€']) 1 = some "a" ∧
    slice? (encode ['a', '€']) 3 = none := by decide +kernel

end Utf8

end Outbox
