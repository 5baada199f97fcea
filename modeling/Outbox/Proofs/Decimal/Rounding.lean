import Mathlib.Algebra.Order.Field.Power
import Mathlib.Tactic.FieldSimp
import Mathlib.Tactic.Linarith
import Mathlib.Tactic.Positivity
import Mathlib.Tactic.Ring
import Outbox.Decimal.Double

/-! How far rounding to a double moves a ratio. The mantissa has at most 53 bits; a ratio that is not too small moves by
at most one part in `2 ^ 53`; and one that is less than half a gap above the largest double stays within range. -/

namespace Outbox.Double

variable {num den : Nat} {negative : Bool}

/-- The size of a double, as a rational number. -/
def value (x : Double) : ℚ := x.mantissa * 2 ^ x.exponent

theorem value_nonneg (x : Double) : 0 ≤ x.value := by
  rw [value]
  positivity

/-- A double that is neither too large nor too fine. -/
structure IsFinite (x : Double) : Prop where
  mantissa_lt : x.mantissa < 2 ^ 53
  lowest_le : lowestExponent ≤ x.exponent
  le_highest : x.exponent ≤ highestExponent

/-! ### Ratios -/

theorem scaled_den_pos (hden : 0 < den) (num : Nat) (e : Int) : 0 < (scaled num den e).2 := by
  rw [scaled]
  split
  · exact hden
  · exact Nat.lt_of_lt_of_le hden (Nat.le_shiftLeft ..)

theorem scaled_ratio (num den : Nat) (e : Int) :
    ((scaled num den e).1 : ℚ) / (scaled num den e).2 = num / den / 2 ^ e := by
  rw [scaled]
  split
  · next h =>
    obtain ⟨k, rfl⟩ : ∃ k : Nat, e = -k := ⟨(-e).toNat, by omega⟩
    simp only [neg_neg, Int.toNat_natCast, Nat.shiftLeft_eq, Nat.cast_mul, Nat.cast_pow, Nat.cast_ofNat, zpow_neg,
      zpow_natCast]
    field_simp
  · next h =>
    obtain ⟨k, rfl⟩ : ∃ k : Nat, e = k := ⟨e.toNat, by omega⟩
    simp only [Int.toNat_natCast, Nat.shiftLeft_eq, Nat.cast_mul, Nat.cast_pow, Nat.cast_ofNat, zpow_natCast]
    field_simp

/-- Rounding moves a quotient up by at most a half. -/
theorem divNearest_le {n d : Nat} (hd : 0 < d) : (divNearest n d : ℚ) ≤ n / d + 1 / 2 := by
  have hnat : 2 * (divNearest n d * d) ≤ 2 * n + d := by
    have hdiv := Nat.div_add_mod n d
    have hmod := Nat.mod_lt n hd
    rw [Nat.mul_comm d] at hdiv
    rw [divNearest]
    split
    · next hup =>
      simp only [Bool.or_eq_true, decide_eq_true_eq, Bool.and_eq_true, beq_iff_eq] at hup
      rw [Nat.add_mul, Nat.one_mul]
      omega
    · omega
  have hcast : 2 * ((divNearest n d : ℚ) * d) ≤ 2 * n + d := by exact_mod_cast hnat
  have hpos : (0 : ℚ) < d := by exact_mod_cast hd
  rw [div_add_div _ _ hpos.ne' two_ne_zero, le_div_iff₀ (by positivity)]
  linarith

theorem floor_le_divNearest (n d : Nat) : n / d ≤ divNearest n d := by
  rw [divNearest]
  split <;> omega

theorem divNearest_le_succ (n d : Nat) : divNearest n d ≤ n / d + 1 := by
  rw [divNearest]
  split <;> omega

/-! ### The exponent -/

theorem pow_log2_le (h : 0 < num) : (2 : ℚ) ^ num.log2 ≤ num := by
  exact_mod_cast Nat.log2_self_le (Nat.ne_of_gt h)

theorem lt_pow_log2 (num : Nat) : (num : ℚ) < 2 ^ (num.log2 + 1) := by
  exact_mod_cast Nat.lt_log2_self

theorem ratio_lt (hden : 0 < den) (num : Nat) : (num / den : ℚ) < 2 ^ ((num.log2 : Int) - den.log2 + 1) := by
  have hpos : (0 : ℚ) < den := by exact_mod_cast hden
  calc (num / den : ℚ)
    _ < 2 ^ (num.log2 + 1) / den := div_lt_div_of_pos_right (lt_pow_log2 num) hpos
    _ ≤ 2 ^ (num.log2 + 1) / 2 ^ den.log2 :=
      div_le_div_of_nonneg_left (by positivity) (by positivity) (pow_log2_le hden)
    _ = 2 ^ ((num.log2 : Int) - den.log2 + 1) := by
      rw [← zpow_natCast, ← zpow_natCast, ← zpow_sub₀ two_ne_zero]
      congr 1
      push_cast
      ring

theorem lt_ratio (hnum : 0 < num) (hden : 0 < den) :
    (2 : ℚ) ^ ((num.log2 : Int) - den.log2 - 1) < num / den := by
  have hpos : (0 : ℚ) < den := by exact_mod_cast hden
  calc (2 : ℚ) ^ ((num.log2 : Int) - den.log2 - 1)
    _ = 2 ^ num.log2 / 2 ^ (den.log2 + 1) := by
      rw [← zpow_natCast, ← zpow_natCast, ← zpow_sub₀ two_ne_zero]
      congr 1
      push_cast
      ring
    _ < 2 ^ num.log2 / den := div_lt_div_of_pos_left (by positivity) hpos (lt_pow_log2 den)
    _ ≤ num / den := div_le_div_of_nonneg_right (pow_log2_le hnum) hpos.le

theorem le_floor_iff (hden : 0 < den) (num k : Nat) (e : Int) :
    k ≤ (scaled num den e).1 / (scaled num den e).2 ↔ (k : ℚ) * 2 ^ e ≤ num / den := by
  have hscaled := scaled_den_pos hden num e
  have hpos : (0 : ℚ) < (scaled num den e).2 := by exact_mod_cast hscaled
  have htwo : (0 : ℚ) < 2 ^ e := by positivity
  rw [Nat.le_div_iff_mul_le hscaled, ← le_div_iff₀ htwo, ← scaled_ratio, le_div_iff₀ hpos]
  exact_mod_cast Iff.rfl

/-- At the exponent that fits, a ratio has at most 53 bits before the point, and at least so many where it is not too
small. -/
theorem fittingExponent_spec (hnum : 0 < num) (hden : 0 < den) :
    let e := fittingExponent num den
    lowestExponent ≤ e ∧ (num / den : ℚ) < 2 ^ (e + 53) ∧ (lowestExponent < e → (2 : ℚ) ^ (e + 52) ≤ num / den) := by
  have hguess : fittingExponent num den =
      let guess := max ((num.log2 : Int) - den.log2 - 53) lowestExponent
      if (scaled num den guess).1 / (scaled num den guess).2 ≥ 1 <<< 53 then guess + 1 else guess := rfl
  rw [hguess]
  generalize hg : max ((num.log2 : Int) - den.log2 - 53) lowestExponent = guess
  have hbelow := ratio_lt hden num
  have habove := lt_ratio hnum hden
  have hpow (a b : Int) (h : a ≤ b) : (2 : ℚ) ^ a ≤ 2 ^ b := zpow_le_zpow_right₀ one_le_two h
  have htest : (1 <<< 53 ≤ (scaled num den guess).1 / (scaled num den guess).2) ↔ (2 : ℚ) ^ (guess + 53) ≤ num / den := by
    have hshift : 1 <<< 53 = 2 ^ 53 := rfl
    rw [hshift, le_floor_iff hden, add_comm guess, zpow_add₀ two_ne_zero]
    norm_num
  dsimp only
  split
  · next h =>
    have hwide := htest.1 h
    refine ⟨by omega, ?_, fun _ => ?_⟩
    · exact hbelow.trans_le (hpow _ _ (by omega))
    · exact (hpow _ _ (by omega)).trans hwide
  · next h =>
    have hnarrow := not_le.1 (mt htest.2 h)
    refine ⟨by omega, hnarrow, fun hlow => ?_⟩
    exact (hpow _ _ (by omega)).trans habove.le

/-! ### The nearest double -/

/-- The mantissa that a ratio is rounded to, before it is cut to 53 bits. -/
def rounded (num den : Nat) : Nat :=
  let e := fittingExponent num den
  divNearest (scaled num den e).1 (scaled num den e).2

theorem nearest_eq (hnum : 0 < num) (negative : Bool) (den : Nat) : nearest negative num den =
    if rounded num den = 2 ^ 53 then ⟨negative, 2 ^ 52, fittingExponent num den + 1⟩
    else ⟨negative, rounded num den, fittingExponent num den⟩ := by
  rw [nearest, if_neg (Nat.ne_of_gt hnum)]
  rfl

theorem rounded_le (hnum : 0 < num) (hden : 0 < den) : rounded num den ≤ 2 ^ 53 := by
  obtain ⟨-, hlt, -⟩ := fittingExponent_spec hnum hden
  have hfloor := mt (le_floor_iff hden num (2 ^ 53) (fittingExponent num den)).1
  rw [not_le, not_le] at hfloor
  have hsucc := divNearest_le_succ (scaled num den (fittingExponent num den)).1 (scaled num den (fittingExponent num den)).2
  refine hsucc.trans (hfloor ?_)
  rw [add_comm, zpow_add₀ two_ne_zero] at hlt
  exact_mod_cast hlt

theorem value_nearest (hnum : 0 < num) (negative : Bool) (den : Nat) :
    (nearest negative num den).value = rounded num den * 2 ^ fittingExponent num den := by
  rw [nearest_eq hnum, value]
  split
  · next h =>
    rw [h, zpow_add₀ two_ne_zero]
    push_cast
    ring
  · rfl

theorem rounded_le_ratio (hden : 0 < den) (num : Nat) :
    (rounded num den : ℚ) ≤ num / den / 2 ^ fittingExponent num den + 1 / 2 := by
  rw [← scaled_ratio]
  exact divNearest_le (scaled_den_pos hden num _)

theorem lowest_lt_fittingExponent (hden : 0 < den) (hle : den ≤ num) : lowestExponent < fittingExponent num den := by
  obtain ⟨hlow, hlt, -⟩ := fittingExponent_spec (Nat.lt_of_lt_of_le hden hle) hden
  have hpos : (0 : ℚ) < den := by exact_mod_cast hden
  have hone : (1 : ℚ) ≤ num / den := (one_le_div hpos).2 (by exact_mod_cast hle)
  refine lt_of_le_of_ne hlow fun heq => ?_
  rw [← heq] at hlt
  exact absurd (hone.trans_lt hlt) (not_lt.2 (zpow_le_one_of_nonpos₀ one_le_two (by decide)))

/-- Rounding moves a ratio that is not too small up by at most one part in `2 ^ 53`. -/
theorem value_nearest_le (hden : 0 < den) (hle : den ≤ num) (negative : Bool) :
    (nearest negative num den).value ≤ num / den * (1 + 1 / 2 ^ 53) := by
  have hnum : 0 < num := Nat.lt_of_lt_of_le hden hle
  obtain ⟨-, -, hfull⟩ := fittingExponent_spec hnum hden
  have hbits := hfull (lowest_lt_fittingExponent hden hle)
  have hrounded := rounded_le_ratio hden num
  rw [value_nearest hnum]
  generalize fittingExponent num den = e at *
  have htwo : (0 : ℚ) < 2 ^ e := by positivity
  rw [zpow_add₀ two_ne_zero] at hbits
  calc (rounded num den : ℚ) * 2 ^ e
    _ ≤ (num / den / 2 ^ e + 1 / 2) * 2 ^ e := mul_le_mul_of_nonneg_right hrounded htwo.le
    _ = num / den + 2 ^ e * 2 ^ (52 : Int) * (1 / 2 ^ 53) := by
      norm_num
      field_simp
      ring
    _ ≤ num / den + num / den * (1 / 2 ^ 53) := by
      have := mul_le_mul_of_nonneg_right hbits (show (0 : ℚ) ≤ 1 / 2 ^ 53 by positivity)
      linarith
    _ = num / den * (1 + 1 / 2 ^ 53) := by ring

/-- A ratio of at least one stays at least one. -/
theorem one_le_value_nearest (hden : 0 < den) (hle : den ≤ num) (negative : Bool) :
    1 ≤ (nearest negative num den).value := by
  have hnum : 0 < num := Nat.lt_of_lt_of_le hden hle
  obtain ⟨-, hlt, hfull⟩ := fittingExponent_spec hnum hden
  have hbits := hfull (lowest_lt_fittingExponent hden hle)
  have hpos : (0 : ℚ) < den := by exact_mod_cast hden
  have hone : (1 : ℚ) ≤ num / den := (one_le_div hpos).2 (by exact_mod_cast hle)
  have hrounded : (2 ^ 52 : ℚ) ≤ rounded num den := by
    have hfloor := (le_floor_iff hden num (2 ^ 52) (fittingExponent num den)).2 (by
      rw [add_comm, zpow_add₀ two_ne_zero] at hbits
      exact_mod_cast hbits)
    exact_mod_cast hfloor.trans (floor_le_divNearest _ _)
  have hexponent : 0 ≤ fittingExponent num den + 52 := by
    by_contra hneg
    exact absurd (hone.trans_lt hlt) (not_lt.2 (zpow_le_one_of_nonpos₀ one_le_two (by omega)))
  rw [value_nearest hnum]
  generalize fittingExponent num den = e at *
  have htwo : (0 : ℚ) < 2 ^ e := by positivity
  calc (1 : ℚ)
    _ ≤ 2 ^ (e + 52) := one_le_zpow₀ one_le_two hexponent
    _ = 2 ^ 52 * 2 ^ e := by
      rw [zpow_add₀ two_ne_zero, mul_comm]
      norm_num
    _ ≤ rounded num den * 2 ^ e := mul_le_mul_of_nonneg_right hrounded htwo.le

/-- Whatever is rounded, the mantissa has at most 53 bits and the exponent is not below the lowest. -/
theorem nearest_bounds (hden : 0 < den) (num : Nat) (negative : Bool) :
    (nearest negative num den).mantissa < 2 ^ 53 ∧ lowestExponent ≤ (nearest negative num den).exponent := by
  by_cases hnum : num = 0
  · rw [hnum, nearest, if_pos rfl]
    exact ⟨Nat.two_pow_pos 53, Int.le_refl _⟩
  have hpos : 0 < num := Nat.pos_of_ne_zero hnum
  obtain ⟨hlow, -, -⟩ := fittingExponent_spec hpos hden
  rw [nearest_eq hpos]
  split
  · exact ⟨Nat.pow_lt_pow_right Nat.one_lt_two (Nat.lt_succ_self 52), Int.le_add_one hlow⟩
  · next hne => exact ⟨lt_of_le_of_ne (rounded_le hpos hden) hne, hlow⟩

/-- A ratio that is less than half a gap above the largest double is within range. -/
theorem isFinite_nearest (hden : 0 < den) (h : (num / den : ℚ) < (2 ^ 54 - 1) * 2 ^ 970) (negative : Bool) :
    (nearest negative num den).IsFinite := by
  obtain ⟨hmantissa, hlow⟩ := nearest_bounds hden num negative
  refine ⟨hmantissa, hlow, ?_⟩
  by_cases hnum : num = 0
  · rw [hnum, nearest, if_pos rfl]
    exact (by decide : lowestExponent ≤ highestExponent)
  have hpos : 0 < num := Nat.pos_of_ne_zero hnum
  obtain ⟨-, -, hfull⟩ := fittingExponent_spec hpos hden
  have hrounded := rounded_le_ratio hden num
  rw [nearest_eq hpos]
  split
  · next heq =>
    change fittingExponent num den + 1 ≤ 971
    rw [heq] at hrounded
    by_contra hhigh
    have hgap : (2 : ℚ) ^ (971 : Int) ≤ 2 ^ fittingExponent num den := zpow_le_zpow_right₀ one_le_two (by omega)
    generalize (2 : ℚ) ^ fittingExponent num den = gap at *
    have hgap' : (2 : ℚ) ^ 970 * 2 ≤ gap := by
      rw [← pow_succ, ← zpow_natCast]
      exact hgap
    have hratio : (2 ^ 53 - 1 / 2 : ℚ) * gap ≤ num / den := by
      have hgappos : 0 < gap := lt_of_lt_of_le (by positivity) hgap'
      rw [← le_div_iff₀ hgappos]
      push_cast at hrounded
      linarith
    have hwide := (mul_le_mul_of_nonneg_left hgap' (show (0 : ℚ) ≤ 2 ^ 53 - 1 / 2 by norm_num)).trans hratio
    generalize (2 : ℚ) ^ 970 = unit at *
    linarith
  · change fittingExponent num den ≤ 971
    by_contra hhigh
    have hbits := hfull (by rw [lowestExponent]; omega)
    have htop : (2 : ℚ) ^ (1024 : Int) ≤ 2 ^ (fittingExponent num den + 52) := zpow_le_zpow_right₀ one_le_two (by omega)
    have htop' : (2 : ℚ) ^ 54 * 2 ^ 970 ≤ num / den := by
      rw [← pow_add, ← zpow_natCast]
      exact htop.trans hbits
    have hunit : (0 : ℚ) < 2 ^ 970 := by positivity
    generalize (2 : ℚ) ^ 970 = unit at *
    linarith only [h, htop', hunit]

/-! ### Arithmetic -/

theorem isFinite_zero (negative : Bool) : (zero negative).IsFinite :=
  ⟨Nat.two_pow_pos 53, Int.le_refl _, (by decide : lowestExponent ≤ highestExponent)⟩

theorem IsFinite.sign {x : Double} (h : x.IsFinite) (negative : Bool) : ({ x with negative := negative } : Double).IsFinite :=
  ⟨h.mantissa_lt, h.lowest_le, h.le_highest⟩

theorem IsFinite.value_lt {x : Double} (h : x.IsFinite) : x.value < (2 ^ 54 - 1) * 2 ^ 970 := by
  have hmantissa : (x.mantissa : ℚ) ≤ 2 ^ 53 - 1 := by
    have := h.mantissa_lt
    rw [le_sub_iff_add_le]
    exact_mod_cast this
  have hpow : (2 : ℚ) ^ x.exponent ≤ 2 ^ 970 * 2 := by
    rw [← pow_succ, ← zpow_natCast]
    exact zpow_le_zpow_right₀ one_le_two h.le_highest
  have hvalue := mul_le_mul hmantissa hpow (by positivity) (by norm_num)
  have hunit : (0 : ℚ) < 2 ^ 970 := by positivity
  rw [value]
  generalize (2 : ℚ) ^ 970 = unit at *
  linarith only [hvalue, hunit]

theorem value_ofNat_le (n : Nat) : (ofNat n).value ≤ n * (1 + 1 / 2 ^ 53) := by
  by_cases hn : n = 0
  · rw [hn, ofNat, nearest, if_pos rfl, value, zero]
    norm_num
  · have h := value_nearest_le Nat.one_pos (Nat.one_le_iff_ne_zero.2 hn) false
    rwa [Nat.cast_one, div_one] at h

theorem isFinite_ofNat {n : Nat} (h : n < 2 ^ 970) (negative : Bool) : (nearest negative n 1).IsFinite := by
  refine isFinite_nearest Nat.one_pos ?_ negative
  have hcast : (n : ℚ) < 2 ^ 970 := by exact_mod_cast h
  have hunit : (0 : ℚ) < 2 ^ 970 := by positivity
  rw [Nat.cast_one, div_one]
  generalize (2 : ℚ) ^ 970 = unit at *
  linarith only [hcast, hunit]

theorem one_le_value_powerOfTen (n : Nat) : 1 ≤ (powerOfTen n).value :=
  one_le_value_nearest Nat.one_pos (Nat.pow_pos (by decide)) false

theorem value_powerOfTen_le (n : Nat) : (powerOfTen n).value ≤ 10 ^ n * (1 + 1 / 2 ^ 53) := by
  have h := value_ofNat_le (Decimal.tenTo n)
  have htenTo : Decimal.tenTo n = 10 ^ n := rfl
  rw [htenTo] at h
  exact_mod_cast h

theorem mul_bounds (x y : Double) : (x.mul y).mantissa < 2 ^ 53 ∧ lowestExponent ≤ (x.mul y).exponent :=
  nearest_bounds (scaled_den_pos Nat.one_pos (x.mantissa * y.mantissa) (-(x.exponent + y.exponent))) _ _

/-- A product is within range if the exact one is. -/
theorem isFinite_mul {x y : Double} (h : x.value * y.value < (2 ^ 54 - 1) * 2 ^ 970) : (x.mul y).IsFinite := by
  let e := -(x.exponent + y.exponent)
  have hmul : x.mul y = nearest (x.negative != y.negative) (scaled (x.mantissa * y.mantissa) 1 e).1
      (scaled (x.mantissa * y.mantissa) 1 e).2 := rfl
  have hratio : (x.mantissa * y.mantissa : Nat) / (1 : Nat) / (2 : ℚ) ^ e = x.value * y.value := by
    rw [value, value, zpow_neg, div_inv_eq_mul, zpow_add₀ two_ne_zero]
    push_cast
    ring
  rw [hmul]
  refine isFinite_nearest (scaled_den_pos Nat.one_pos _ _) ?_ _
  rwa [scaled_ratio, hratio]

/-- A quotient by a double of at least one is within range. -/
theorem isFinite_div {x y : Double} (hx : x.IsFinite) (hy : 1 ≤ y.value) : (x.div y).IsFinite := by
  let e := y.exponent - x.exponent
  have hdiv : x.div y = nearest (x.negative != y.negative) (scaled x.mantissa y.mantissa e).1
      (scaled x.mantissa y.mantissa e).2 := rfl
  have hmantissa : 0 < y.mantissa := by
    refine Nat.pos_of_ne_zero fun hzero => ?_
    rw [value, hzero, Nat.cast_zero, zero_mul] at hy
    exact absurd hy (by norm_num)
  have hratio : (x.mantissa / y.mantissa / 2 ^ e : ℚ) = x.value / y.value := by
    rw [value, value, zpow_sub₀ two_ne_zero]
    field_simp
  rw [hdiv]
  refine isFinite_nearest (scaled_den_pos hmantissa _ _) ?_ _
  rw [scaled_ratio, hratio]
  exact (div_le_self x.value_nonneg hy).trans_lt hx.value_lt

end Outbox.Double
