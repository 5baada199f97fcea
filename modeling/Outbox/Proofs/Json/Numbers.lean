import Mathlib.Data.List.TakeDrop
import Outbox.Json.Number
import Outbox.Proofs.Bytes.Utf8
import Outbox.Proofs.Json.Writing

/-! Reading written numbers. A number is over where a byte follows that cannot be part of one; an integer of 64 bits is
read as itself. -/

namespace Outbox

open Utf8 (encode encodeChar)

namespace Decimal

theorem toList_repr (n : Nat) : (Nat.repr n).toList = Nat.toDigits 10 n := by
  rw [Nat.repr, String.toList_ofList]

theorem repr_ne_nil (n : Nat) : (Nat.repr n).toList ≠ [] := by
  rw [toList_repr]
  exact Nat.toDigits_ne_nil

/-- No number but zero starts with a zero. -/
theorem toDigits_lead {n : Nat} (h : n ≠ 0) : ∃ c rest, Nat.toDigits 10 n = c :: rest ∧ c ≠ '0' := by
  induction n using Nat.strongRecOn with
  | ind n ih =>
    by_cases hlt : n < 10
    · refine ⟨_, _, Nat.toDigits_of_lt_base hlt, ?_⟩
      interval_cases n
      · exact absurd rfl h
      all_goals decide
    · obtain ⟨c, rest, hdigits, hc⟩ := ih (n / 10) (by omega) (by omega)
      rw [Nat.toDigits_of_base_le (by decide) (Nat.le_of_not_lt hlt), hdigits]
      exact ⟨c, _, rfl, hc⟩

end Decimal

namespace Json

/-! ### Digits -/

/-- A digit is one byte, which stands for the same number. -/
theorem encodeChar_digit {c : Char} (h : c.isDigit) :
    ∃ b, encodeChar c = [b] ∧ isDigit b ∧ digitValue b = c.toNat - '0'.toNat ∧ (b = 48 → c = '0') := by
  obtain ⟨hlow, hhigh⟩ : 48 ≤ c.toNat ∧ c.toNat ≤ 57 := Char.isDigit_iff_toNat.1 h
  have hc : c = Char.ofNat c.toNat := (Char.ofNat_toNat c).symm
  generalize c.toNat = n at hlow hhigh hc
  subst hc
  interval_cases n <;> exact ⟨_, rfl, by decide, by decide, by decide⟩

/-- Digits, of which several do not start with a zero. -/
structure IsWhole (ds : List Char) : Prop where
  digits : ∀ c ∈ ds, c.isDigit
  lead : ds = ['0'] ∨ ∃ c rest, ds = c :: rest ∧ c ≠ '0'

theorem isWhole_repr (n : Nat) : IsWhole (Nat.repr n).toList where
  digits _ := Decimal.isDigit_of_mem_repr
  lead := by
    rw [Decimal.toList_repr]
    by_cases h : n = 0
    · exact .inl (h ▸ rfl)
    · exact .inr (Decimal.toDigits_lead h)

theorem isDigit_of_mem_encode {ds : List Char} (h : ∀ c ∈ ds, c.isDigit) {b : UInt8} (hb : b ∈ encode ds) :
    isDigit b := by
  obtain ⟨c, hc, hb⟩ := List.mem_flatMap.1 hb
  obtain ⟨b', hbytes, hdigit, -⟩ := encodeChar_digit (h c hc)
  rw [hbytes, List.mem_singleton] at hb
  rwa [hb]

/-- No digit follows. -/
def NoDigit (rest : Bytes) : Prop := ∀ b ∈ rest.head?, ¬isDigit b

theorem spanDigits_encode {ds : List Char} (h : ∀ c ∈ ds, c.isDigit) {rest : Bytes} (hrest : NoDigit rest) :
    spanDigits (encode ds ++ rest) = (encode ds, rest) := by
  have hds : ∀ b ∈ encode ds, isDigit b := fun b => isDigit_of_mem_encode h
  rw [spanDigits, List.span_eq_takeWhile_dropWhile, List.takeWhile_append_of_pos hds, List.dropWhile_append_of_pos hds]
  cases rest with
  | nil => rw [List.takeWhile_nil, List.dropWhile_nil, List.append_nil]
  | cons b rest =>
    have hb : ¬isDigit b := hrest b rfl
    rw [List.takeWhile_cons_of_neg hb, List.dropWhile_cons_of_neg hb, List.append_nil]

theorem accumulate_encode {ds : List Char} (h : ∀ c ∈ ds, c.isDigit) {top n : Nat}
    (htop : Nat.ofDigitChars 10 ds n ≤ top) : accumulate top n (encode ds) = (Nat.ofDigitChars 10 ds n, []) := by
  induction ds generalizing n with
  | nil => rfl
  | cons c ds ih =>
    obtain ⟨hc, hds⟩ := List.forall_mem_cons.1 h
    obtain ⟨b, hbytes, -, hvalue, -⟩ := encodeChar_digit hc
    rw [Nat.ofDigitChars_cons] at htop ⊢
    rw [Utf8.encode_cons, hbytes, List.singleton_append, accumulate, hvalue, Nat.mul_comm n 10]
    have hle : 10 * n + (c.toNat - '0'.toNat) ≤ top := by
      rw [Nat.ofDigitChars_eq_ofDigitChars_zero] at htop
      have := Nat.le_mul_of_pos_left (10 * n + (c.toNat - '0'.toNat)) (Nat.pow_pos (n := ds.length) (show 0 < 10 by decide))
      omega
    rw [if_pos hle]
    exact ih hds htop

/-- What becomes of a number once its whole part is read. -/
def afterWhole (negative : Bool) (n : Nat) (rest : Bytes) : Outcome Numeral :=
  match rest with
  | 46 :: fraction => readFraction negative n 0 fraction
  | 101 :: e | 69 :: e => readExponent negative n 0 e
  | _ => .ok (integerNumeral negative n, rest)

/-- The digits of a whole number are read up to what follows them. -/
theorem readNumber_encode {ds : List Char} (h : IsWhole ds) {n : Nat} (hn : Nat.ofDigitChars 10 ds 0 = n)
    (htop : n ≤ Count.top) {rest : Bytes} (hrest : NoDigit rest) (negative : Bool) :
    readNumber negative (encode ds ++ rest) = afterWhole negative n rest := by
  have hspan := spanDigits_encode h.digits hrest
  have haccumulate : accumulate Count.top 0 (encode ds) = _ := accumulate_encode h.digits (hn ▸ htop)
  obtain ⟨c, cs, rfl⟩ : ∃ c cs, ds = c :: cs := by
    rcases h.lead with rfl | ⟨c, cs, rfl, -⟩
    · exact ⟨_, _, rfl⟩
    · exact ⟨c, cs, rfl⟩
  obtain ⟨b, hbytes, hdigit, -, hzero⟩ := encodeChar_digit (h.digits c List.mem_cons_self)
  have hlead : ¬(b = 48 ∧ (encode cs ++ rest).head?.any isDigit) := by
    rintro ⟨hb, hmore⟩
    obtain ⟨hzeros, rfl⟩ | ⟨c', cs', heq, hne⟩ := h.lead.imp_left List.cons.inj
    · obtain ⟨b', hb', hdigit'⟩ := (Option.any_eq_true _ _).1 hmore
      exact hrest b' hb' hdigit'
    · exact hne ((List.cons.inj heq).1.symm.trans (hzero hb))
  rw [Utf8.encode_cons, hbytes, List.singleton_append] at hspan haccumulate ⊢
  rw [List.cons_append] at hspan ⊢
  rw [readNumber, hdigit, Bool.not_true, if_neg Bool.false_ne_true, if_neg hlead, hspan]
  dsimp only
  rw [haccumulate, hn]
  rfl

/-! ### Integers -/

/-- No byte follows that could be part of a number. -/
def NumberOver (rest : Bytes) : Prop := ∀ b ∈ rest.head?, ¬isDigit b ∧ b ≠ 46 ∧ b ≠ 101 ∧ b ≠ 69

theorem NumberOver.noDigit {rest : Bytes} (h : NumberOver rest) : NoDigit rest := fun b hb => (h b hb).1

theorem NumberOver.afterWhole {rest : Bytes} (h : NumberOver rest) (negative : Bool) (n : Nat) :
    afterWhole negative n rest = .ok (integerNumeral negative n, rest) := by
  rw [Json.afterWhole]
  · rintro _ rfl
    exact (h _ rfl).2.1 rfl
  · rintro _ rfl
    exact (h _ rfl).2.2.1 rfl
  · rintro _ rfl
    exact (h _ rfl).2.2.2 rfl

/-- The integers that stay integers when they are read. -/
def IsStored (n : Int) : Prop := -9223372036854775808 ≤ n ∧ n < 18446744073709551616

theorem value_repr (n : Nat) : Nat.ofDigitChars 10 (Nat.repr n).toList 0 = n := by
  rw [Decimal.toList_repr, Nat.ofDigitChars_toDigits (by decide) (by decide)]

/-- A text from its first byte on is read as a number, whatever follows it that is not part of one. -/
def ReadsNumber (text : Bytes) (x : Numeral) : Prop :=
  ∃ b bytes, text = b :: bytes ∧ (b = 45 ∨ isDigit b) ∧ ∀ rest, NumberOver rest →
    readNumber (b == 45) (if b = 45 then bytes ++ rest else b :: (bytes ++ rest)) = .ok (x, rest)

theorem readsNumber_of_sign (negative : Bool) {cs : List Char} (hcs : cs.head?.any Char.isDigit) {x : Numeral}
    (h : ∀ rest, NumberOver rest → readNumber negative (encode cs ++ rest) = .ok (x, rest)) :
    ReadsNumber (encode ((if negative then ['-'] else []) ++ cs)) x := by
  cases negative with
  | true => exact ⟨45, encode cs, rfl, .inl rfl, h⟩
  | false =>
    obtain ⟨c, hc, hdigit⟩ := (Option.any_eq_true _ _).1 hcs
    obtain ⟨tail, rfl⟩ := List.head?_eq_some_iff.1 hc
    obtain ⟨b, hbytes, hb, -⟩ := encodeChar_digit hdigit
    rw [Utf8.encode_cons, hbytes] at h
    have hminus : b ≠ 45 := by
      rintro rfl
      cases hb
    refine ⟨b, encode tail, ?_, .inr hb, fun rest hrest => ?_⟩
    · rw [if_neg Bool.false_ne_true, List.nil_append, Utf8.encode_cons, hbytes]
      rfl
    · rw [beq_false_of_ne hminus, if_neg hminus]
      exact h rest hrest

theorem IsWhole.head_isDigit {ds : List Char} (h : IsWhole ds) : ds.head?.any Char.isDigit := by
  obtain ⟨c, rest, rfl⟩ : ∃ c rest, ds = c :: rest := by
    rcases h.lead with rfl | ⟨c, rest, rfl, -⟩ <;> exact ⟨_, _, rfl⟩
  exact h.digits c List.mem_cons_self

/-- An integer that can be stored is read as itself. -/
theorem readsNumber_integer {n : Int} (h : IsStored n) :
    ReadsNumber (encode (Decimal.integerChars n)) (.integer n) := by
  have hwhole := isWhole_repr n.natAbs
  have htop : n.natAbs ≤ Count.top := by
    have hcount : Count.top = 18446744073709551615 := rfl
    rw [IsStored] at h
    omega
  have hnumeral : integerNumeral (decide (n < 0)) n.natAbs = .integer n := by
    rw [IsStored] at h
    rw [integerNumeral]
    by_cases hneg : n < 0
    · rw [decide_eq_true hneg, if_neg (by decide), if_neg ?_]
      · congr 1
        omega
      · change ¬(n.natAbs = 0 ∨ n.natAbs > 9223372036854775808)
        omega
    · rw [decide_eq_false hneg, if_pos (by decide)]
      congr 1
      omega
  have hread := readsNumber_of_sign (decide (n < 0)) hwhole.head_isDigit (x := .integer n) fun rest hrest => by
    rw [readNumber_encode hwhole (value_repr _) htop hrest.noDigit, hrest.afterWhole, hnumeral]
  rw [Decimal.integerChars]
  simpa only [decide_eq_true_eq] using hread

end Json

end Outbox
