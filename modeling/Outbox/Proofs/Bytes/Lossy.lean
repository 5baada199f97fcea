import Mathlib.Data.String.Basic
import Outbox.Proofs.Bytes.Utf8

/-! Strict and lenient reading of UTF-8. A character is only read from the bytes that it is written with, so strict
reading takes exactly the bytes of texts. Lenient reading takes all bytes; the text that it gives has the same bytes if
and only if they are the bytes of a text. -/

namespace Outbox.Utf8

variable {b d e f : UInt8} {c : Char} {bytes rest : Bytes} {s : String}

/-! ### The number of a character -/

theorem toNat_ofNat_of_valid {n : Nat} (h : n < 0xD800 ∨ 0xDFFF < n ∧ n < 0x110000) : (Char.ofNat n).toNat = n := by
  have hvalid : n.isValidChar := h
  rw [Char.ofNat, dif_pos hvalid]
  rfl

theorem ofNat_eq_of_toNat {n : Nat} (h : n = b.toNat) : UInt8.ofNat n = b := by rw [h, UInt8.ofNat_toNat]

theorem follower_eq {n : Nat} (h : n % 64 + 128 = d.toNat) : follower n = d := ofNat_eq_of_toNat h

theorem isContinuation_iff : isContinuation b ↔ 128 ≤ b.toNat ∧ b.toNat ≤ 191 := within_iff

/-! ### Bytes that are read as a character -/

theorem encodeChar_one (h : b.toNat < 128) : encodeChar (Char.ofNat b.toNat) = [b] := by
  have hn := toNat_ofNat_of_valid (n := b.toNat) (by omega)
  rw [encodeChar_of_ascii (by omega), ofNat_eq_of_toNat hn]

theorem encodeChar_two (hlow : 194 ≤ b.toNat) (hhigh : b.toNat ≤ 223) (hd : isContinuation d) :
    encodeChar (joinTwo b d) = [b, d] := by
  obtain ⟨hdlow, hdhigh⟩ := isContinuation_iff.1 hd
  have hn : (joinTwo b d).toNat = b.toNat % 32 * 64 + d.toNat % 64 := toNat_ofNat_of_valid (by rw [payload]; omega)
  rcases encodeChar_cases (joinTwo b d) with ⟨hlt, -⟩ | ⟨-, -, heq⟩ | ⟨hle, -⟩ | ⟨hle, -⟩
  · omega
  · rw [heq, ofNat_eq_of_toNat (b := b) (by omega), follower_eq (d := d) (by omega)]
  · omega
  · omega

/-- A second byte is a continuation, and it goes by narrower bounds after the first and after the last of the bytes that
start a character. -/
theorem second_bounds {first last low high : UInt8} (hlow : 128 ≤ low.toNat) (hhigh : high.toNat ≤ 191)
    (hne : first ≠ last) (h : (if b = first then low ≤ d && d ≤ 0xBF
      else if b = last then 0x80 ≤ d && d ≤ high else isContinuation d) = true) :
    128 ≤ d.toNat ∧ d.toNat ≤ 191 ∧ (b.toNat = first.toNat → low.toNat ≤ d.toNat) ∧
      (b.toNat = last.toNat → d.toNat ≤ high.toNat) := by
  simp only [UInt8.toNat_inj]
  split at h
  · next hfirst =>
    obtain ⟨hdlow, hdhigh⟩ := within_iff.1 h
    exact ⟨hlow.trans hdlow, hdhigh, fun _ => hdlow, fun hlast => absurd (hfirst.symm.trans hlast) hne⟩
  · next hfirst =>
    split at h
    · obtain ⟨hdlow, hdhigh⟩ := within_iff.1 h
      exact ⟨hdlow, hdhigh.trans hhigh, fun heq => absurd heq hfirst, fun _ => hdhigh⟩
    · next hlast =>
      obtain ⟨hdlow, hdhigh⟩ := isContinuation_iff.1 h
      exact ⟨hdlow, hdhigh, fun heq => absurd heq hfirst, fun heq => absurd heq hlast⟩

/-- A character of three bytes is neither one of fewer bytes nor a surrogate. -/
theorem encodeChar_three (hlow : 224 ≤ b.toNat) (hhigh : b.toNat ≤ 239) (hd : secondOfThree b d)
    (he : isContinuation e) : encodeChar (joinThree b d e) = [b, d, e] := by
  obtain ⟨helow, hehigh⟩ := isContinuation_iff.1 he
  have hsecond : 128 ≤ d.toNat ∧ d.toNat ≤ 191 ∧ (b.toNat = 224 → 160 ≤ d.toNat) ∧ (b.toNat = 237 → d.toNat ≤ 159) :=
    second_bounds (by decide) (by decide) (by decide) hd
  have hn : (joinThree b d e).toNat = b.toNat % 16 * 4096 + d.toNat % 64 * 64 + e.toNat % 64 :=
    toNat_ofNat_of_valid (by rw [payload, payload]; omega)
  rcases encodeChar_cases (joinThree b d e) with ⟨hlt, -⟩ | ⟨-, hlt, -⟩ | ⟨-, -, heq⟩ | ⟨hle, -⟩
  · omega
  · omega
  · rw [heq, ofNat_eq_of_toNat (b := b) (by omega), follower_eq (d := d) (by omega), follower_eq (d := e) (by omega)]
  · omega

theorem encodeChar_four (hlow : 240 ≤ b.toNat) (hhigh : b.toNat ≤ 244) (hd : secondOfFour b d) (he : isContinuation e)
    (hf : isContinuation f) : encodeChar (joinFour b d e f) = [b, d, e, f] := by
  obtain ⟨helow, hehigh⟩ := isContinuation_iff.1 he
  obtain ⟨hflow, hfhigh⟩ := isContinuation_iff.1 hf
  have hsecond : 128 ≤ d.toNat ∧ d.toNat ≤ 191 ∧ (b.toNat = 240 → 144 ≤ d.toNat) ∧ (b.toNat = 244 → d.toNat ≤ 143) :=
    second_bounds (by decide) (by decide) (by decide) hd
  have hn : (joinFour b d e f).toNat =
      b.toNat % 8 * 262144 + d.toNat % 64 * 4096 + e.toNat % 64 * 64 + f.toNat % 64 :=
    toNat_ofNat_of_valid (by rw [payload, payload, payload]; omega)
  rcases encodeChar_cases (joinFour b d e f) with ⟨hlt, -⟩ | ⟨-, hlt, -⟩ | ⟨-, hlt, -⟩ | ⟨-, heq⟩
  · omega
  · omega
  · omega
  · rw [heq, ofNat_eq_of_toNat (b := b) (by omega), follower_eq (d := d) (by omega), follower_eq (d := e) (by omega),
      follower_eq (d := f) (by omega)]

/-- A character is read from the bytes that it is written with, and from no others. -/
theorem cons_eq_of_next {after : Bytes} (h : next b rest = (.char c, after)) : b :: rest = encodeChar c ++ after := by
  unfold next at h
  split at h
  · next hone =>
    cases h
    rw [encodeChar_one (UInt8.lt_iff_toNat_lt.1 hone)]
    rfl
  · split at h
    · next htwo =>
      obtain ⟨hlow, hhigh⟩ := within_iff.1 htwo
      split at h
      · cases h
      · split at h
        · next hd =>
          cases h
          rw [encodeChar_two hlow hhigh hd]
          rfl
        · cases h
    · split at h
      · next hthree =>
        obtain ⟨hlow, hhigh⟩ := within_iff.1 hthree
        split at h
        · cases h
        · split at h
          · next hd =>
            split at h
            · cases h
            · split at h
              · next he =>
                cases h
                rw [encodeChar_three hlow hhigh hd he]
                rfl
              · cases h
          · cases h
      · split at h
        · next hfour =>
          obtain ⟨hlow, hhigh⟩ := within_iff.1 hfour
          split at h
          · cases h
          · split at h
            · next hd =>
              split at h
              · cases h
              · split at h
                · next he =>
                  split at h
                  · cases h
                  · split at h
                    · next hf =>
                      cases h
                      rw [encodeChar_four hlow hhigh hd he hf]
                      rfl
                    · cases h
                · cases h
            · cases h
        · cases h

/-! ### Strict reading -/

theorem exists_of_collect {pieces : List Piece} {done cs : List Char} {start : Nat}
    (h : collect done start pieces = .ok cs) : ∃ ds, pieces = ds.map .char ∧ cs = done.reverse ++ ds := by
  induction pieces generalizing done start with
  | nil =>
    cases h
    exact ⟨[], rfl, (List.append_nil _).symm⟩
  | cons piece pieces ih =>
    cases piece with
    | char c =>
      obtain ⟨ds, rfl, rfl⟩ := ih h
      exact ⟨c :: ds, rfl, by simp⟩
    | malformed width => cases h
    | cut width => cases h

/-- The pieces that were read are not changed by what follows. -/
theorem exists_piecesAfter (done : List Piece) (bytes : Bytes) :
    ∃ more, piecesAfter done bytes = done.reverse ++ more := by
  fun_induction piecesAfter done bytes with
  | case1 done => exact ⟨[], (List.append_nil _).symm⟩
  | case2 done b rest ih =>
    obtain ⟨more, hmore⟩ := ih
    exact ⟨(next b rest).1 :: more, by rw [hmore]; simp⟩

/-- Bytes all of whose pieces are characters are the bytes of these characters. -/
theorem eq_encode_of_piecesAfter {done : List Piece} {cs : List Char}
    (h : piecesAfter done bytes = done.reverse ++ cs.map .char) : bytes = encode cs := by
  fun_induction piecesAfter done bytes generalizing cs with
  | case1 done =>
    have hnil : cs.map Piece.char = [] := by simpa using h.symm
    rw [List.map_eq_nil_iff.1 hnil]
    rfl
  | case2 done b rest ih =>
    obtain ⟨more, hmore⟩ := exists_piecesAfter ((next b rest).1 :: done) (next b rest).2
    have hpieces : (next b rest).1 :: more = cs.map .char := by simpa [hmore] using h
    obtain ⟨c, cs, rfl⟩ : ∃ c cs', cs = c :: cs' :=
      List.exists_cons_of_ne_nil fun hnil => by simp [hnil] at hpieces
    have hfirst : (next b rest).1 = .char c := (List.cons.inj hpieces).1
    have hrest : (next b rest).2 = encode cs := ih (by rw [h, hfirst]; simp)
    rw [encode_cons, ← hrest]
    exact cons_eq_of_next (Prod.ext hfirst rfl)

/-- Strict reading takes the bytes of texts and nothing else. -/
theorem decode_eq_ok_iff : decode bytes = .ok s ↔ bytes = ofString s := by
  constructor
  · intro h
    rw [decode] at h
    cases hcollect : collect [] 0 (pieces bytes) with
    | error fault => rw [hcollect] at h; cases h
    | ok cs =>
      rw [hcollect] at h
      cases h
      obtain ⟨ds, hpieces, rfl⟩ := exists_of_collect hcollect
      rw [ofString_ofList]
      exact eq_encode_of_piecesAfter hpieces
  · rintro rfl
    rw [← String.ofList_toList (s := s), ofString_ofList]
    exact decode_encode _

/-! ### Lenient reading -/

theorem decodeLossy_ofString (s : String) : decodeLossy (ofString s) = s := by
  have hshown : Piece.shown ∘ Piece.char = id := rfl
  rw [decodeLossy, ofString_eq_encode, pieces, piecesAfter_encode, List.reverse_nil, List.nil_append, List.map_map, hshown,
    List.map_id, String.ofList_toList]

/-- Lenient reading keeps the bytes if and only if strict reading takes them. -/
theorem ofString_decodeLossy_iff : ofString (decodeLossy bytes) = bytes ↔ ∃ s, decode bytes = .ok s := by
  constructor
  · intro h
    exact ⟨decodeLossy bytes, decode_eq_ok_iff.2 h.symm⟩
  · rintro ⟨s, hs⟩
    rw [decode_eq_ok_iff.1 hs, decodeLossy_ofString]

end Outbox.Utf8
