import Outbox.Proofs.Decimal.Shortest
import Outbox.Proofs.Json.Numbers

/-! Reading written doubles. What is read for a number is in range; and the shortest decimal of a double in range is
itself read as one, though not always as the same: a reader rounds up to three times, and the largest doubles are near
enough to the end of the range that this has to be seen. -/

namespace Outbox.Json

open Double (IsFinite value_ofNat_le value_powerOfTen_le one_le_value_powerOfTen isFinite_div isFinite_mul isFinite_ofNat)

/-! ### Scaled doubles -/

theorem isFinite_divideByPower {x : Double} (hx : x.IsFinite) (e : Nat) : (divideByPower x e).IsFinite := by
  induction e using Nat.strongRecOn generalizing x with
  | ind e ih =>
    rw [divideByPower]
    split
    · exact isFinite_div hx (one_le_value_powerOfTen e)
    · next he =>
      split
      · exact hx
      · exact ih (e - powerLimit) (by rw [powerLimit] at *; omega) (isFinite_div hx (one_le_value_powerOfTen _))

/-- What is read for a number of 64 bits and an exponent is in range. -/
theorem isFinite_of_scaledDouble? {n : Nat} (hn : n ≤ Count.top) {e : Int} {x : Double}
    (h : scaledDouble? n e = some x) : x.IsFinite := by
  have hfinite : (Double.ofNat n).IsFinite :=
    isFinite_ofNat (Nat.lt_of_le_of_lt hn (by decide +kernel)) false
  rw [scaledDouble?] at h
  dsimp only at h
  split at h
  · cases h
    exact isFinite_divideByPower hfinite _
  · split at h
    · split at h
      · cases h
      · next hlimit =>
        cases h
        rw [Double.isInfinite, decide_eq_true_eq, not_lt] at hlimit
        obtain ⟨hmantissa, hlow⟩ := Double.mul_bounds (Double.ofNat n) (.powerOfTen e.toNat)
        exact ⟨hmantissa, hlow, hlimit⟩
    · split at h
      · cases h
        exact hfinite
      · cases h

/-- Rounding three times leads out of the range only from more than three gaps below its end. -/
theorem exists_scaledDouble {n e : Nat} (he : e ≤ powerLimit)
    (h : (n : ℚ) * 10 ^ e ≤ (2 ^ 54 - 7) * 2 ^ 970) : ∃ x, scaledDouble? n e = some x := by
  have hproduct : (Double.ofNat n).value * (Double.powerOfTen e).value < (2 ^ 54 - 1) * 2 ^ 970 := by
    have hunit : (0 : ℚ) < 2 ^ 970 := by positivity
    generalize (2 : ℚ) ^ 970 = unit at *
    calc (Double.ofNat n).value * (Double.powerOfTen e).value
      _ ≤ n * (1 + 1 / 2 ^ 53) * (10 ^ e * (1 + 1 / 2 ^ 53)) :=
        mul_le_mul (value_ofNat_le n) (value_powerOfTen_le e) (Double.value_nonneg _) (by positivity)
      _ = n * 10 ^ e * (1 + 1 / 2 ^ 53) ^ 2 := by ring
      _ ≤ (2 ^ 54 - 7) * unit * (1 + 1 / 2 ^ 53) ^ 2 := mul_le_mul_of_nonneg_right h (by positivity)
      _ = (2 ^ 54 - 7) * (1 + 1 / 2 ^ 53) ^ 2 * unit := by ring
      _ < (2 ^ 54 - 1) * unit := mul_lt_mul_of_pos_right (by norm_num) hunit
  have hlimit : ¬((Double.ofNat n).mul (.powerOfTen e)).isInfinite := by
    rw [Double.isInfinite, decide_eq_true_eq, not_lt]
    exact (isFinite_mul hproduct).le_highest
  refine ⟨(Double.ofNat n).mul (.powerOfTen e), ?_⟩
  have he' : (e : Int) ≤ powerLimit := by exact_mod_cast he
  rw [scaledDouble?, if_neg (by omega), if_pos he', Int.toNat_natCast, if_neg hlimit]

theorem search_sign (x : Double) (negative : Bool) (more : Nat) :
    Decimal.search { x with negative := negative } more = Decimal.search x more := by
  induction more with
  | zero => rfl
  | succ more ih =>
    rw [Decimal.search, Decimal.search, ih]
    rfl

theorem shortest_sign (x : Double) (negative : Bool) :
    Decimal.shortest { x with negative := negative } = Decimal.shortest x := by
  rw [Decimal.shortest, Decimal.shortest, search_sign]
  rfl

/-- The decimals of the largest three doubles are read as doubles. -/
theorem exists_scaledDouble_top : ∀ m ∈ [2 ^ 53 - 3, 2 ^ 53 - 2, 2 ^ 53 - 1],
    let d := Decimal.shortest ⟨false, m, 971⟩
    d.exponent ≤ powerLimit ∧ (scaledDouble? d.digits d.exponent).isSome := by decide +kernel

theorem near_le_top {x : Double} (hx : x.IsFinite) (h : ¬(x.exponent = 971 ∧ 2 ^ 53 - 3 ≤ x.mantissa)) :
    (x.mantissa + 1 / 2 : ℚ) * 2 ^ x.exponent ≤ (2 ^ 54 - 7) * 2 ^ 970 := by
  have hmantissa := hx.mantissa_lt
  have hhigh : x.exponent ≤ 971 := hx.le_highest
  by_cases htop : x.exponent = 971
  · have hlt : x.mantissa + 4 ≤ 2 ^ 53 := by omega
    have hcast : (x.mantissa : ℚ) + 4 ≤ 2 ^ 53 := by exact_mod_cast hlt
    have hpow : (2 : ℚ) ^ (971 : Int) = 2 * 2 ^ 970 := by rw [← pow_succ', ← zpow_natCast]; rfl
    have hunit : (0 : ℚ) < 2 ^ 970 := by positivity
    rw [htop, hpow]
    generalize (2 : ℚ) ^ 970 = unit at *
    calc (x.mantissa + 1 / 2 : ℚ) * (2 * unit)
      _ = (2 * x.mantissa + 1) * unit := by ring
      _ ≤ (2 ^ 54 - 7) * unit := mul_le_mul_of_nonneg_right (by linarith) hunit.le
  · have hcast : (x.mantissa : ℚ) + 1 ≤ 2 ^ 53 := by exact_mod_cast hmantissa
    have hpow : (2 : ℚ) ^ x.exponent ≤ 2 ^ 970 := by
      rw [← zpow_natCast]
      exact zpow_le_zpow_right₀ one_le_two (by omega)
    exact mul_le_mul (by linarith) hpow (by positivity) (by norm_num)

/-- The shortest decimal of a double is read as a double. -/
theorem exists_scaledDouble_shortest {x : Double} (hx : x.IsFinite) (hnear : Decimal.IsNear x (Decimal.shortest x)) :
    (Decimal.shortest x).exponent ≤ powerLimit ∧
      ∃ y, scaledDouble? (Decimal.shortest x).digits (Decimal.shortest x).exponent = some y := by
  -- Half a gap above one of the largest three is too near to the end for the bound, so these are read one by one.
  by_cases htop : x.exponent = 971 ∧ 2 ^ 53 - 3 ≤ x.mantissa
  · have hm : x.mantissa ∈ [2 ^ 53 - 3, 2 ^ 53 - 2, 2 ^ 53 - 1] := by
      have := hx.mantissa_lt
      simp only [List.mem_cons, List.not_mem_nil, or_false]
      omega
    obtain ⟨hlimit, hsome⟩ := exists_scaledDouble_top x.mantissa hm
    have hunsigned : Decimal.shortest ⟨false, x.mantissa, 971⟩ = Decimal.shortest x := by
      rw [← htop.1]
      exact shortest_sign x false
    rw [hunsigned] at hlimit hsome
    exact ⟨hlimit, Option.isSome_iff_exists.1 hsome⟩
  · have hvalue := hnear.value_le.trans (near_le_top hx htop)
    have hpos := hnear.digits_pos
    generalize Decimal.shortest x = d at *
    by_cases hneg : d.exponent < 0
    · exact ⟨le_trans hneg.le (Int.natCast_nonneg _), _, if_pos hneg⟩
    · obtain ⟨e, he⟩ := Int.eq_ofNat_of_zero_le (not_lt.1 hneg)
      rw [Decimal.value, he, zpow_natCast] at hvalue
      rw [he]
      suffices hlimit : e ≤ powerLimit from ⟨by exact_mod_cast hlimit, exists_scaledDouble hlimit hvalue⟩
      refine Nat.le_of_not_lt fun hlimit => ?_
      have hdigits : (1 : ℚ) ≤ d.digits := by exact_mod_cast hpos
      have hpower : (10 : ℚ) ^ 309 ≤ 10 ^ e := pow_le_pow_right₀ (by norm_num) hlimit
      have htop : (2 : ℚ) ^ 54 * 2 ^ 970 < 10 ^ 309 := by
        rw [← pow_add]
        exact_mod_cast (by decide +kernel : 2 ^ (54 + 970) < 10 ^ 309)
      have hunit : (0 : ℚ) < 2 ^ 970 := by positivity
      have hle := le_mul_of_one_le_left (show (0 : ℚ) ≤ 10 ^ e by positivity) hdigits
      generalize (2 : ℚ) ^ 970 = unit at *
      generalize (10 : ℚ) ^ 309 = limit at *
      linarith

/-! ### What is read for a number -/

/-- An exponent after its sign. -/
def readPower (negative : Bool) (significand : Nat) (exponent : Int) (down : Bool) (digits : Bytes) : Outcome Numeral :=
  match digits with
  | [] => stopHere .eofInValue []
  | b :: rest =>
    if !isDigit b then stopHere .invalidNumber rest
    else
      match accumulate exponentTop 0 (spanDigits digits).1 with
      | (e, []) =>
        finishDouble negative significand (clampExponent (if down then exponent - e else exponent + e)) (spanDigits digits).2
      | (_, _ :: ignored) =>
        if significand ≠ 0 ∧ !down then stopHere .numberOutOfRange (ignored ++ (spanDigits digits).2)
        else .ok (.double (.zero negative), (spanDigits digits).2)

/-- Whether an exponent is negative, and its digits. -/
def exponentSign (bytes : Bytes) : Bool × Bytes :=
  match bytes with
  | 43 :: rest => (false, rest)
  | 45 :: rest => (true, rest)
  | _ => (false, bytes)

theorem readExponent_eq (negative : Bool) (significand : Nat) (exponent : Int) (bytes : Bytes) :
    readExponent negative significand exponent bytes =
      readPower negative significand exponent (exponentSign bytes).1 (exponentSign bytes).2 := rfl

/-- An integer that can be stored, or a double in range. -/
def Numeral.IsProper : Numeral → Prop
  | .integer n => IsStored n
  | .double x => x.IsFinite

section Proper

variable {negative : Bool} {significand : Nat} {exponent : Int} {bytes rest : Bytes} {n : Numeral}

theorem accumulate_le {top n : Nat} (h : n ≤ top) (bytes : Bytes) : (accumulate top n bytes).1 ≤ top := by
  induction bytes generalizing n with
  | nil => exact h
  | cons b bytes ih =>
    rw [accumulate]
    split
    · next hle => exact ih hle
    · exact h

theorem isProper_finishDouble (hs : significand ≤ Count.top)
    (h : finishDouble negative significand exponent bytes = .ok (n, rest)) : n.IsProper := by
  rw [finishDouble] at h
  split at h
  · next x hx =>
    cases h
    exact (isFinite_of_scaledDouble? hs hx).sign negative
  · cases h

theorem isProper_readPower {down : Bool} (hs : significand ≤ Count.top)
    (h : readPower negative significand exponent down bytes = .ok (n, rest)) : n.IsProper := by
  unfold readPower at h
  split at h
  · cases h
  · split at h
    · cases h
    · split at h
      · exact isProper_finishDouble hs h
      · split at h
        · cases h
        · cases h
          exact Double.isFinite_zero negative

theorem isProper_readExponent (hs : significand ≤ Count.top)
    (h : readExponent negative significand exponent bytes = .ok (n, rest)) : n.IsProper := by
  rw [readExponent_eq] at h
  exact isProper_readPower hs h

theorem isProper_readExponentOrEnd (hs : significand ≤ Count.top)
    (h : readExponentOrEnd negative significand exponent bytes = .ok (n, rest)) : n.IsProper := by
  unfold readExponentOrEnd at h
  split at h
  · exact isProper_readExponent hs h
  · exact isProper_readExponent hs h
  · exact isProper_finishDouble hs h

theorem isProper_readFraction (hs : significand ≤ Count.top)
    (h : readFraction negative significand exponent bytes = .ok (n, rest)) : n.IsProper := by
  rw [readFraction] at h
  dsimp only at h
  split at h
  · cases h
  · exact isProper_readExponentOrEnd (accumulate_le hs _) h

theorem isProper_integerNumeral {m : Nat} (hm : m ≤ Count.top) (negative : Bool) :
    (integerNumeral negative m).IsProper := by
  have htop : Count.top = 18446744073709551615 := rfl
  rw [integerNumeral]
  split
  · exact ⟨by omega, by omega⟩
  · split
    · exact (Double.isFinite_ofNat (Nat.lt_of_le_of_lt hm (by decide +kernel)) false).sign true
    · next h =>
      have hle : m ≤ 9223372036854775808 := Nat.le_of_not_lt (not_or.1 h).2
      exact ⟨by omega, by omega⟩

/-- Every number that is read is an integer of 64 bits or a double in range. -/
theorem isProper_readNumber (h : readNumber negative bytes = .ok (n, rest)) : n.IsProper := by
  unfold readNumber at h
  split at h
  · cases h
  · split at h
    · cases h
    · split at h
      · cases h
      · dsimp only at h
        have hkept (bytes : Bytes) : (accumulate Count.top 0 bytes).1 ≤ Count.top := accumulate_le (Nat.zero_le _) bytes
        split at h
        · exact isProper_readFraction (hkept _) h
        · exact isProper_readExponent (hkept _) h
        · exact isProper_readExponent (hkept _) h
        · split at h
          · cases h
            exact isProper_integerNumeral (hkept _) negative
          · exact isProper_finishDouble (hkept _) h

end Proper

end Outbox.Json
