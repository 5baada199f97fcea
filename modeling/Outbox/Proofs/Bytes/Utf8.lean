import Outbox.Bytes.Utf8

/-! What is written in UTF-8 is read again as what it was. The bytes of a character end where the character ends,
whatever follows them, and beyond ASCII none of them is a byte of an ASCII character. -/

namespace Outbox.Utf8

variable {c : Char} {cs : List Char}

/-! ### The bytes of a character -/

theorem toNat_ofNat_of_lt {n : Nat} (h : n < 256) : (UInt8.ofNat n).toNat = n := by
  rw [UInt8.toNat_ofNat']
  exact Nat.mod_eq_of_lt h

/-- The byte that holds six bits of a character after its first. -/
def follower (n : Nat) : UInt8 := UInt8.ofNat (n % 64 + 128)

theorem toNat_follower (n : Nat) : (follower n).toNat = n % 64 + 128 := toNat_ofNat_of_lt (by omega)

theorem isContinuation_follower (n : Nat) : isContinuation (follower n) := by
  have hn := toNat_follower n
  simp only [isContinuation, Bool.and_eq_true, decide_eq_true_eq, UInt8.le_iff_toNat_le, hn, UInt8.reduceToNat]
  omega

theorem payload_follower (n : Nat) : payload (follower n) = n % 64 := by
  rw [payload, toNat_follower]
  omega

theorem toNat_lt_top (c : Char) : c.toNat < 1114112 := by
  rcases c.valid with h | ⟨-, h⟩
  · exact Nat.lt_trans h (by decide)
  · exact h

/-- The bytes of a character by its number. -/
theorem encodeChar_cases (c : Char) :
    (c.toNat < 128 ∧ encodeChar c = [UInt8.ofNat c.toNat]) ∨
    (128 ≤ c.toNat ∧ c.toNat < 2048 ∧ encodeChar c = [UInt8.ofNat (c.toNat / 64 + 192), follower c.toNat]) ∨
    (2048 ≤ c.toNat ∧ c.toNat < 65536 ∧
      encodeChar c = [UInt8.ofNat (c.toNat / 4096 + 224), follower (c.toNat / 64), follower c.toNat]) ∨
    65536 ≤ c.toNat ∧ encodeChar c =
      [UInt8.ofNat (c.toNat / 262144 + 240), follower (c.toNat / 4096), follower (c.toNat / 64), follower c.toNat] := by
  have htop := toNat_lt_top c
  rw [encodeChar, String.utf8EncodeChar]
  generalize hn : c.toNat = n at htop
  have hval : c.val.toNat = n := hn
  rw [hval]
  split
  · exact .inl ⟨by omega, rfl⟩
  · split
    · exact .inr (.inl ⟨by omega, by omega, by rw [Nat.mod_eq_of_lt (by omega)]; rfl⟩)
    · split
      · exact .inr (.inr (.inl ⟨by omega, by omega, by rw [Nat.mod_eq_of_lt (by omega)]; rfl⟩))
      · exact .inr (.inr (.inr ⟨by omega, by rw [Nat.mod_eq_of_lt (by omega)]; rfl⟩))

theorem encodeChar_of_ascii (h : c.toNat < 128) : encodeChar c = [UInt8.ofNat c.toNat] := by
  rw [encodeChar, String.utf8EncodeChar]
  exact if_pos (Nat.le_of_lt_succ h)

theorem le_of_mem_encodeChar (h : 128 ≤ c.toNat) {b : UInt8} (hb : b ∈ encodeChar c) : 128 ≤ b.toNat := by
  have hfollower (n : Nat) : 128 ≤ (follower n).toNat := by rw [toNat_follower]; exact Nat.le_add_left _ _
  have htop := toNat_lt_top c
  have hfirst {n : Nat} (hlow : 128 ≤ n) (hn : n < 256) : 128 ≤ (UInt8.ofNat n).toNat := by rwa [toNat_ofNat_of_lt hn]
  rcases encodeChar_cases c with ⟨hlt, -⟩ | ⟨-, hlt, heq⟩ | ⟨-, hlt, heq⟩ | ⟨-, heq⟩
  · omega
  all_goals
    rw [heq] at hb
    rcases List.mem_cons.1 hb with rfl | hb
    · exact hfirst (by omega) (by omega)
    · simp only [List.mem_cons, List.not_mem_nil, or_false] at hb
      rcases hb with rfl | rfl | rfl <;> exact hfollower _

/-! ### Reading one character -/

section Next

variable {b d e f : UInt8} {rest : Bytes}

theorem within_iff {low high : UInt8} : (low ≤ b && b ≤ high) = true ↔ low.toNat ≤ b.toNat ∧ b.toNat ≤ high.toNat := by
  simp only [Bool.and_eq_true, decide_eq_true_eq, UInt8.le_iff_toNat_le]

theorem next_one (h : b.toNat < 128) : next b rest = (.char (Char.ofNat b.toNat), rest) := by
  unfold next
  exact if_pos (UInt8.lt_iff_toNat_lt.2 h)

theorem next_two (hlow : 194 ≤ b.toNat) (hhigh : b.toNat < 224) (hd : isContinuation d) :
    next b (d :: rest) = (.char (joinTwo b d), rest) := by
  have hone : ¬b < 0x80 := fun h => absurd (UInt8.lt_iff_toNat_lt.1 h) (Nat.not_lt_of_le (Nat.le_trans (by decide) hlow))
  have htwo : (0xC2 ≤ b && b ≤ 0xDF) = true := within_iff.2 ⟨hlow, Nat.le_of_lt_succ hhigh⟩
  unfold next
  rw [if_neg hone, if_pos htwo]
  exact if_pos hd

theorem next_three (hlow : 224 ≤ b.toNat) (hhigh : b.toNat < 240) (hd : secondOfThree b d) (he : isContinuation e) :
    next b (d :: e :: rest) = (.char (joinThree b d e), rest) := by
  have hone : ¬b < 0x80 := fun h => absurd (UInt8.lt_iff_toNat_lt.1 h) (Nat.not_lt_of_le (Nat.le_trans (by decide) hlow))
  have htwo : ¬(0xC2 ≤ b && b ≤ 0xDF) = true := fun h => absurd (within_iff.1 h).2 (Nat.not_le_of_lt hlow)
  have hthree : (0xE0 ≤ b && b ≤ 0xEF) = true := within_iff.2 ⟨hlow, Nat.le_of_lt_succ hhigh⟩
  unfold next
  rw [if_neg hone, if_neg htwo, if_pos hthree]
  simp only [hd, he, if_true]

theorem next_four (hlow : 240 ≤ b.toNat) (hhigh : b.toNat < 245) (hd : secondOfFour b d) (he : isContinuation e)
    (hf : isContinuation f) : next b (d :: e :: f :: rest) = (.char (joinFour b d e f), rest) := by
  have hone : ¬b < 0x80 := fun h => absurd (UInt8.lt_iff_toNat_lt.1 h) (Nat.not_lt_of_le (Nat.le_trans (by decide) hlow))
  have htwo : ¬(0xC2 ≤ b && b ≤ 0xDF) = true :=
    fun h => absurd (within_iff.1 h).2 (Nat.not_le_of_lt (Nat.le_trans (by decide) hlow))
  have hthree : ¬(0xE0 ≤ b && b ≤ 0xEF) = true := fun h => absurd (within_iff.1 h).2 (Nat.not_le_of_lt hlow)
  have hfour : (0xF0 ≤ b && b ≤ 0xF4) = true := within_iff.2 ⟨hlow, Nat.le_of_lt_succ hhigh⟩
  unfold next
  rw [if_neg hone, if_neg htwo, if_neg hthree, if_pos hfour]
  simp only [hd, he, hf, if_true]

end Next

/-- No character of three bytes is written that a shorter form or a surrogate would start like. -/
theorem secondOfThree_follower (hle : 2048 ≤ c.toNat) (hlt : c.toNat < 65536) :
    secondOfThree (UInt8.ofNat (c.toNat / 4096 + 224)) (follower (c.toNat / 64)) := by
  have hb := toNat_ofNat_of_lt (n := c.toNat / 4096 + 224) (by omega)
  have hd := toNat_follower (c.toNat / 64)
  rw [secondOfThree]
  split
  · next heq =>
    rw [heq] at hb
    exact within_iff.2 ⟨by rw [hd]; simp only [UInt8.reduceToNat] at hb ⊢; omega,
      by rw [hd]; simp only [UInt8.reduceToNat]; omega⟩
  · split
    · next heq =>
      rw [heq] at hb
      have hvalid : c.toNat < 55296 ∨ 57343 < c.toNat := c.valid.imp id And.left
      exact within_iff.2 ⟨by rw [hd]; simp only [UInt8.reduceToNat]; omega,
        by rw [hd]; simp only [UInt8.reduceToNat] at hb ⊢; omega⟩
    · exact isContinuation_follower _

theorem secondOfFour_follower (hle : 65536 ≤ c.toNat) :
    secondOfFour (UInt8.ofNat (c.toNat / 262144 + 240)) (follower (c.toNat / 4096)) := by
  have htop := toNat_lt_top c
  have hb := toNat_ofNat_of_lt (n := c.toNat / 262144 + 240) (by omega)
  have hd := toNat_follower (c.toNat / 4096)
  rw [secondOfFour]
  split
  · next heq =>
    rw [heq] at hb
    exact within_iff.2 ⟨by rw [hd]; simp only [UInt8.reduceToNat] at hb ⊢; omega,
      by rw [hd]; simp only [UInt8.reduceToNat]; omega⟩
  · split
    · next heq =>
      rw [heq] at hb
      exact within_iff.2 ⟨by rw [hd]; simp only [UInt8.reduceToNat]; omega,
        by rw [hd]; simp only [UInt8.reduceToNat] at hb ⊢; omega⟩
    · exact isContinuation_follower _

/-- A character is read as itself, whatever follows its bytes. -/
theorem next_encodeChar (c : Char) (rest : Bytes) :
    ∃ b tail, encodeChar c = b :: tail ∧ next b (tail ++ rest) = (.char c, rest) := by
  have hjoin {n : Nat} (hn : n = c.toNat) : Char.ofNat n = c := by rw [hn, Char.ofNat_toNat]
  have htop := toNat_lt_top c
  rcases encodeChar_cases c with ⟨hlt, heq⟩ | ⟨hle, hlt, heq⟩ | ⟨hle, hlt, heq⟩ | ⟨hle, heq⟩
  · have hb := toNat_ofNat_of_lt (n := c.toNat) (by omega)
    refine ⟨_, _, heq, ?_⟩
    rw [next_one (by rwa [hb]), hjoin hb]
    rfl
  · have hb := toNat_ofNat_of_lt (n := c.toNat / 64 + 192) (by omega)
    refine ⟨_, _, heq, (next_two (by omega) (by omega) (isContinuation_follower _)).trans ?_⟩
    rw [joinTwo, hb, payload_follower, hjoin (by omega)]
    rfl
  · have hb := toNat_ofNat_of_lt (n := c.toNat / 4096 + 224) (by omega)
    refine ⟨_, _, heq, (next_three (by omega) (by omega) (secondOfThree_follower hle hlt)
      (isContinuation_follower _)).trans ?_⟩
    rw [joinThree, hb, payload_follower, payload_follower, hjoin (by omega)]
    rfl
  · have hb := toNat_ofNat_of_lt (n := c.toNat / 262144 + 240) (by omega)
    refine ⟨_, _, heq, (next_four (by omega) (by omega) (secondOfFour_follower hle) (isContinuation_follower _)
      (isContinuation_follower _)).trans ?_⟩
    rw [joinFour, hb, payload_follower, payload_follower, payload_follower, hjoin (by omega)]
    rfl

/-! ### Texts -/

theorem encode_append (cs ds : List Char) : encode (cs ++ ds) = encode cs ++ encode ds := List.flatMap_append

theorem encode_cons (c : Char) (cs : List Char) : encode (c :: cs) = encodeChar c ++ encode cs := rfl

theorem piecesAfter_encode (done : List Piece) (cs : List Char) :
    piecesAfter done (encode cs) = done.reverse ++ cs.map .char := by
  induction cs generalizing done with
  | nil => rw [encode, List.flatMap_nil, piecesAfter, List.map_nil, List.append_nil]
  | cons c cs ih =>
    obtain ⟨b, tail, hbytes, hnext⟩ := next_encodeChar c (encode cs)
    rw [encode_cons, hbytes, List.cons_append, piecesAfter, hnext, ih, List.reverse_cons, List.map_cons,
      List.append_assoc]
    rfl

theorem collect_map_char (done cs : List Char) (start : Nat) :
    collect done start (cs.map .char) = .ok (done.reverse ++ cs) := by
  induction cs generalizing done start with
  | nil => rw [List.map_nil, collect, List.append_nil]
  | cons c cs ih => rw [List.map_cons, collect, ih, List.reverse_cons, List.append_assoc]; rfl

theorem decode_encode (cs : List Char) : decode (encode cs) = .ok (String.ofList cs) := by
  rw [decode, pieces, piecesAfter_encode, List.reverse_nil, List.nil_append, collect_map_char]
  rfl

theorem toList_loop_eq (bytes : ByteArray) (i : Nat) (done : Bytes) :
    ByteArray.toList.loop bytes i done = done.reverse ++ bytes.data.toList.drop i := by
  fun_induction ByteArray.toList.loop bytes i done with
  | case1 i done h ih =>
    have hi : i < bytes.data.toList.length := h
    have hget : bytes.get! i = bytes.data.toList[i] := getElem!_pos bytes.data i hi
    rw [ih, List.drop_eq_getElem_cons hi, hget, List.reverse_cons, List.append_assoc]
    rfl
  | case2 i done h =>
    have hi : bytes.data.toList.length ≤ i := Nat.le_of_not_lt h
    rw [List.drop_eq_nil_of_le hi, List.append_nil]

theorem toList_toByteArray (bytes : Bytes) : bytes.toByteArray.toList = bytes := by
  rw [ByteArray.toList, toList_loop_eq, List.toList_data_toByteArray]
  rfl

theorem ofString_ofList (cs : List Char) : ofString (String.ofList cs) = encode cs := by
  rw [ofString, String.toByteArray_ofList, List.utf8Encode, toList_toByteArray]
  rfl

theorem ofString_eq_encode (s : String) : ofString s = encode s.toList := by
  rw [← ofString_ofList, String.ofList_toList]

end Outbox.Utf8
