import Outbox.Json.Reader
import Outbox.Proofs.Bytes.Utf8
import Outbox.Proofs.Json.Writing

/-! Reading written strings. Every escape is read as the character that it was written for, and every other character
stands for itself, up to the quote that ends the string. -/

namespace Outbox.Json

open Utf8 (encode encodeChar)

/-- The byte stands for itself in a string. -/
def IsOrdinary (b : UInt8) : Prop := b ≠ quote ∧ b ≠ backslash ∧ ¬b < 32

theorem IsOrdinary.step {b : UInt8} (h : IsOrdinary b) : StringPlace.plain.step b = .go .plain [b] := by
  obtain ⟨hquote, hbackslash, hcontrol⟩ := h
  rw [StringPlace.step, if_neg hquote, if_neg hbackslash, if_neg hcontrol]

theorem scanString_ordinary {bytes : Bytes} (h : ∀ b ∈ bytes, IsOrdinary b) (done rest : Bytes) :
    scanString .plain done (bytes ++ rest) = scanString .plain (bytes.reverse ++ done) rest := by
  induction bytes generalizing done with
  | nil => rfl
  | cons b bytes ih =>
    obtain ⟨hb, hbytes⟩ := List.forall_mem_cons.1 h
    rw [List.cons_append, scanString, hb.step]
    exact (ih hbytes (b :: done)).trans (by rw [List.reverse_cons, List.append_assoc]; rfl)

theorem isOrdinary_of_toNat {b : UInt8} (hprintable : 32 ≤ b.toNat) (hquote : b.toNat ≠ 34)
    (hbackslash : b.toNat ≠ 92) : IsOrdinary b :=
  ⟨fun h => hquote (h ▸ rfl), fun h => hbackslash (h ▸ rfl),
    fun h => absurd (UInt8.lt_iff_toNat_lt.1 h) (Nat.not_lt_of_le hprintable)⟩

theorem isOrdinary_of_mem_encodeChar {c : Char} (hc : ¬IsSpecial c) {b : UInt8} (hb : b ∈ encodeChar c) :
    IsOrdinary b := by
  obtain ⟨hquote, hrest⟩ := not_or.1 hc
  obtain ⟨hbackslash, hcontrol⟩ := not_or.1 hrest
  by_cases hascii : c.toNat < 128
  · rw [Utf8.encodeChar_of_ascii hascii, List.mem_singleton] at hb
    have hn : b.toNat = c.toNat := by rw [hb, Utf8.toNat_ofNat_of_lt (by omega)]
    refine isOrdinary_of_toNat ?_ (fun h => hquote ?_) fun h => hbackslash ?_
    · omega
    · exact Char.toNat_inj.1 (hn.symm.trans h)
    · exact Char.toNat_inj.1 (hn.symm.trans h)
  · have hle := Utf8.le_of_mem_encodeChar (Nat.le_of_not_lt hascii) hb
    exact isOrdinary_of_toNat (by omega) (by omega) (by omega)

theorem scanString_special {c : Char} (hc : IsSpecial c) (done rest : Bytes) :
    scanString .plain done (encode (escape c) ++ rest) = scanString .plain ((encodeChar c).reverse ++ done) rest := by
  rcases hc with rfl | rfl | hc
  · rfl
  · rfl
  · obtain ⟨n, hn⟩ : ∃ n, n = c.toNat := ⟨_, rfl⟩
    rw [← hn] at hc
    have hchar : c = Char.ofNat n := by rw [hn, Char.ofNat_toNat]
    subst hchar
    interval_cases n <;> rfl

theorem scanString_escape (c : Char) (done rest : Bytes) :
    scanString .plain done (encode (escape c) ++ rest) = scanString .plain ((encodeChar c).reverse ++ done) rest := by
  by_cases hc : IsSpecial c
  · exact scanString_special hc done rest
  · have hbytes : encode (escape c) = encodeChar c := by
      rw [(escape_of_not_special hc).1, Utf8.encode_cons]
      exact List.append_nil _
    rw [hbytes, scanString_ordinary fun b => isOrdinary_of_mem_encodeChar hc]

theorem scanString_flatMap_escape (cs : List Char) (done rest : Bytes) :
    scanString .plain done (encode (cs.flatMap escape) ++ quote :: rest) =
      .ok (done.reverse ++ encode cs, rest) := by
  induction cs generalizing done with
  | nil =>
    have hclose : scanString .plain done (quote :: rest) = .ok (done.reverse, rest) := rfl
    exact hclose.trans (by rw [encode, List.flatMap_nil, List.append_nil])
  | cons c cs ih =>
    rw [List.flatMap_cons, Utf8.encode_append, List.append_assoc, scanString_escape, ih, Utf8.encode_cons,
      List.reverse_append, List.reverse_reverse, List.append_assoc]

theorem encode_quoted (s : String) : encode (quoted s) = quote :: (encode (s.toList.flatMap escape) ++ [quote]) := by
  rw [quoted, Utf8.encode_cons, Utf8.encode_append]
  rfl

/-- A written string is read as the string, after its opening quote. -/
theorem readString_quoted (s : String) (rest : Bytes) :
    readString (encode (s.toList.flatMap escape) ++ quote :: rest) = .ok (s, rest) := by
  rw [readString, scanString_flatMap_escape, List.reverse_nil, List.nil_append]
  dsimp only
  rw [Utf8.decode_encode, String.ofList_toList]

end Outbox.Json
