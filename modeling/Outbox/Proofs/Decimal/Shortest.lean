import Outbox.Decimal.Shortest
import Outbox.Proofs.Decimal.Rounding

/-! What the shortest decimal of a double is at most. It has no more than 17 digits, or is the power of ten after them,
and it is less than half a gap above the double. -/

namespace Outbox.Decimal

variable {x : Double}

def value (d : Decimal) : ℚ := d.digits * 10 ^ d.exponent

/-! ### Magnitude -/

theorem tenTo_eq (n : Nat) : tenTo n = 10 ^ n := rfl

theorem atLeastPower_iff (x : Double) (k : Int) : atLeastPower x k ↔ (10 : ℚ) ^ k ≤ x.value := by
  rw [atLeastPower, decide_eq_true_eq, Double.value, Nat.shiftLeft_eq, Nat.shiftLeft_eq, tenTo_eq, tenTo_eq]
  obtain ⟨a, b, hk, hb⟩ : ∃ a b : Nat, k = a - b ∧ (k.toNat = a ∧ (-k).toNat = b) := ⟨_, _, by omega, rfl, rfl⟩
  obtain ⟨c, d, he, hd⟩ : ∃ c d : Nat, x.exponent = c - d ∧ (x.exponent.toNat = c ∧ (-x.exponent).toNat = d) :=
    ⟨_, _, by omega, rfl, rfl⟩
  rw [hb.1, hb.2, hd.1, hd.2, hk, he, zpow_sub₀ (by norm_num), zpow_sub₀ two_ne_zero]
  simp only [zpow_natCast]
  rw [div_le_iff₀ (by positivity), ← mul_div_assoc, div_mul_eq_mul_div, le_div_iff₀ (by positivity)]
  have hcast : ((10 ^ a * 2 ^ d : Nat) : ℚ) ≤ (x.mantissa * 10 ^ b * 2 ^ c : Nat) ↔
      10 ^ a * 2 ^ d ≤ x.mantissa * 10 ^ b * 2 ^ c := Nat.cast_le
  rw [← hcast]
  push_cast
  rw [mul_right_comm]

theorem pow_two_le_pow_ten : ∀ j < 1024, 2 ^ (j + 1) ≤ 10 ^ (j * 30103 / 100000 + 2) := by decide +kernel

theorem pow_ten_le_pow_two : ∀ j < 1075, 10 ^ (j * 30103 / 100000 - 1) ≤ 2 ^ (j - 1) := by decide +kernel

/-- The guess of a magnitude is at most one too small, for all powers of two in range. -/
theorem pow_two_le_guess {e : Int} (hlow : -1074 ≤ e) (hhigh : e ≤ 1023) :
    (2 : ℚ) ^ (e + 1) ≤ 10 ^ (e * 30103 / 100000 + 2) := by
  by_cases hneg : 0 ≤ e
  · obtain ⟨j, rfl⟩ := Int.eq_ofNat_of_zero_le hneg
    have h := pow_two_le_pow_ten j (by omega)
    exact_mod_cast h
  · obtain ⟨j, rfl⟩ : ∃ j : Nat, e = -j := ⟨e.natAbs, by omega⟩
    have h : (10 : ℚ) ^ (j * 30103 / 100000 - 1) ≤ 2 ^ (j - 1) := by exact_mod_cast pow_ten_le_pow_two j (by omega)
    calc (2 : ℚ) ^ (-(j : Int) + 1)
      _ = (2 ^ (j - 1))⁻¹ := by
        rw [← zpow_natCast, ← zpow_neg]
        congr 1
        omega
      _ ≤ (10 ^ (j * 30103 / 100000 - 1))⁻¹ := inv_anti₀ (by positivity) h
      _ = 10 ^ (-((j * 30103 / 100000 - 1 : Nat) : Int)) := by rw [zpow_neg, zpow_natCast]
      _ ≤ 10 ^ (-(j : Int) * 30103 / 100000 + 2) := zpow_le_zpow_right₀ (by norm_num) (by omega)

theorem value_lt_pow_log2 (x : Double) : x.value < 2 ^ ((x.mantissa.log2 : Int) + x.exponent + 1) := by
  have h : (x.mantissa : ℚ) < 2 ^ (x.mantissa.log2 + 1) := by exact_mod_cast Nat.lt_log2_self
  have hpos : (0 : ℚ) < 2 ^ x.exponent := by positivity
  rw [Double.value, add_right_comm, zpow_add₀ two_ne_zero]
  refine mul_lt_mul_of_pos_right ?_ hpos
  exact_mod_cast h

/-- A double is below the power of ten after its magnitude. -/
theorem value_lt_magnitude (hx : x.IsFinite) (hzero : x.mantissa ≠ 0) : x.value < 10 ^ (magnitude x + 1) := by
  have hlog : x.mantissa.log2 < 53 := (Nat.log2_lt hzero).2 hx.mantissa_lt
  have hlow : -1074 ≤ x.exponent := hx.lowest_le
  have hhigh : x.exponent ≤ 971 := hx.le_highest
  have hguess := (value_lt_pow_log2 x).trans_le (pow_two_le_guess (by omega) (by omega))
  rw [magnitude]
  generalize ((x.mantissa.log2 : Int) + x.exponent) * 30103 / 100000 = guess at *
  split
  · rwa [add_assoc]
  · next habove =>
    split
    · exact not_le.1 (mt (atLeastPower_iff x _).2 habove)
    · next hbelow =>
      rw [sub_add_cancel]
      exact not_le.1 (mt (atLeastPower_iff x _).2 hbelow)

theorem le_magnitude (hx : x.IsFinite) : -325 ≤ magnitude x := by
  have hlow : -1074 ≤ x.exponent := hx.lowest_le
  have hguess : -324 ≤ ((x.mantissa.log2 : Int) + x.exponent) * 30103 / 100000 := by omega
  rw [magnitude]
  generalize ((x.mantissa.log2 : Int) + x.exponent) * 30103 / 100000 = guess at *
  split_ifs <;> omega

/-! ### Neighbours -/

theorem grid_unit_pos (x : Double) (e : Int) : 0 < (Grid.of x e).unit := by
  rw [Grid.of]
  exact Nat.lt_of_lt_of_le (Nat.pow_pos (by decide)) (Nat.le_shiftLeft ..)

theorem grid_scale_pos (x : Double) (e : Int) : 0 < (Grid.of x e).scale := by
  rw [Grid.of]
  exact Nat.lt_of_lt_of_le (Nat.pow_pos (by decide)) (Nat.le_shiftLeft ..)

theorem grid_ratio (x : Double) (e : Int) :
    ((Grid.of x e).scale : ℚ) / (Grid.of x e).unit = 2 ^ (x.exponent - 2) / 10 ^ e := by
  obtain ⟨a, b, he, hb⟩ : ∃ a b : Nat, e = a - b ∧ (e.toNat = a ∧ (-e).toNat = b) := ⟨_, _, by omega, rfl, rfl⟩
  obtain ⟨c, d, htwos, hd⟩ : ∃ c d : Nat, x.exponent - 2 = c - d ∧
      ((x.exponent - 2).toNat = c ∧ (-(x.exponent - 2)).toNat = d) := ⟨_, _, by omega, rfl, rfl⟩
  have hgrid : Grid.of x e = ⟨e, 10 ^ b * 2 ^ c, 10 ^ a * 2 ^ d⟩ := by
    rw [Grid.of, hb.1, hb.2, hd.1, hd.2, Nat.shiftLeft_eq, Nat.shiftLeft_eq]
    rfl
  rw [hgrid, htwos, he, zpow_sub₀ two_ne_zero, zpow_sub₀ (by norm_num)]
  simp only [zpow_natCast, Nat.cast_mul, Nat.cast_pow, Nat.cast_ofNat]
  field_simp

theorem Interval.holds_bounds {i : Interval} {g : Grid} {point : Nat} (h : i.holds g point) :
    i.low * g.scale ≤ point * g.unit ∧ point * g.unit ≤ i.high * g.scale := by
  rw [holds] at h
  split at h
  · simpa only [Bool.and_eq_true, decide_eq_true_eq] using h
  · simp only [Bool.and_eq_true, decide_eq_true_eq] at h
    exact ⟨h.1.le, h.2.le⟩

/-- A neighbour lies in the interval, and at most one step above the value. -/
theorem Interval.neighbour?_spec {i : Interval} {g : Grid} {d : Nat} (h : i.neighbour? g = some d) :
    i.holds g d ∧ d ≤ i.value * g.scale / g.unit + 1 := by
  rw [neighbour?] at h
  dsimp only at h
  generalize i.value * g.scale / g.unit = below at h ⊢
  cases hbelow : i.holds g below <;> cases habove : i.holds g (below + 1) <;> rw [hbelow, habove] at h
  · cases h
  · cases h
    exact ⟨habove, Nat.le_refl _⟩
  · cases h
    exact ⟨hbelow, Nat.le_succ _⟩
  · dsimp only at h
    split at h
    · cases h
      exact ⟨hbelow, Nat.le_succ _⟩
    · split at h
      · cases h
        exact ⟨habove, Nat.le_refl _⟩
      · split at h
        · cases h
          exact ⟨hbelow, Nat.le_succ _⟩
        · cases h
          exact ⟨habove, Nat.le_refl _⟩

/-- A decimal of at most 17 digits, or the power of ten after them, that is less than half a gap above a double. -/
structure IsNear (x : Double) (d : Decimal) : Prop where
  digits_pos : 0 < d.digits
  digits_le : d.digits ≤ 10 ^ 17
  le_exponent : -341 ≤ d.exponent
  value_le : d.value ≤ (x.mantissa + 1 / 2) * 2 ^ x.exponent

theorem isNear_neighbour (hx : x.IsFinite) (hzero : x.mantissa ≠ 0) {n d : Nat} (hn : n ≤ 17)
    (h : (Interval.of x).neighbour? (Grid.of x (magnitude x + 1 - n)) = some d) :
    IsNear x ⟨d, magnitude x + 1 - n⟩ := by
  obtain ⟨hholds, hsucc⟩ := Interval.neighbour?_spec h
  obtain ⟨hlow, hhigh⟩ := Interval.holds_bounds hholds
  have hratio := grid_ratio x (magnitude x + 1 - n)
  have hunit := grid_unit_pos x (magnitude x + 1 - n)
  have hscale := grid_scale_pos x (magnitude x + 1 - n)
  have hvalue := value_lt_magnitude hx hzero
  generalize Grid.of x (magnitude x + 1 - n) = g at *
  have hunit' : (0 : ℚ) < g.unit := by exact_mod_cast hunit
  have hquarter : (2 : ℚ) ^ (x.exponent - 2) = 2 ^ x.exponent / 4 := by
    rw [zpow_sub₀ two_ne_zero]
    norm_num
  constructor
  · have hpos : 0 < (Interval.of x).low := by
      rw [Interval.of]
      dsimp only
      split <;> omega
    exact Nat.pos_of_mul_pos_right (Nat.lt_of_lt_of_le (Nat.mul_pos hpos hscale) hlow)
  · refine hsucc.trans (le_trans ?_ (Nat.pow_le_pow_right (by decide) hn))
    rw [Nat.succ_le_iff, Nat.div_lt_iff_lt_mul hunit]
    have hlt : ((4 * x.mantissa : Nat) : ℚ) * (g.scale / g.unit) < 10 ^ n := by
      rw [hratio, hquarter, zpow_sub₀ (by norm_num), zpow_natCast]
      have htop : (0 : ℚ) < 10 ^ (magnitude x + 1) := by positivity
      rw [Double.value, ← div_lt_one htop] at hvalue
      calc ((4 * x.mantissa : Nat) : ℚ) * (2 ^ x.exponent / 4 / (10 ^ (magnitude x + 1) / 10 ^ n))
        _ = x.mantissa * 2 ^ x.exponent / 10 ^ (magnitude x + 1) * 10 ^ n := by
          push_cast
          field_simp
        _ < 1 * 10 ^ n := mul_lt_mul_of_pos_right hvalue (by positivity)
        _ = 10 ^ n := one_mul _
    rw [mul_div_assoc', div_lt_iff₀ hunit'] at hlt
    exact_mod_cast hlt
  · have := le_magnitude hx
    change -341 ≤ magnitude x + 1 - n
    omega
  · have hcast : (d : ℚ) * g.unit ≤ (4 * x.mantissa + 2) * g.scale := by exact_mod_cast hhigh
    rw [← le_div_iff₀ hunit', mul_div_assoc, hratio, hquarter, mul_div_assoc', le_div_iff₀ (by positivity)] at hcast
    refine hcast.trans (le_of_eq ?_)
    ring

/-- The search finds a near decimal, if it finds any. -/
theorem isNear_search (hx : x.IsFinite) (hzero : x.mantissa ≠ 0) (more : Nat) :
    search x more = ⟨0, 0⟩ ∨ IsNear x (search x more) := by
  induction more with
  | zero => exact .inl rfl
  | succ more ih =>
    rw [search]
    split
    · next d hd => exact .inr (isNear_neighbour hx hzero (Nat.sub_le 17 more) hd)
    · exact ih

theorem value_shift (digits : Nat) (e : Int) (h : digits % 10 = 0) :
    value ⟨digits / 10, e + 1⟩ = value ⟨digits, e⟩ := by
  obtain ⟨k, rfl⟩ := Nat.dvd_of_mod_eq_zero h
  rw [value, value, zpow_add_one₀ (by norm_num), Nat.mul_div_cancel_left k (by decide)]
  push_cast
  ring

theorem IsNear.trim {d : Decimal} (h : IsNear x d) (fuel : Nat) : IsNear x (trim fuel d) := by
  induction fuel generalizing d with
  | zero => exact h
  | succ fuel ih =>
    rw [Decimal.trim]
    split
    · next hmore =>
      refine ih ⟨?_, (Nat.div_le_self _ _).trans h.digits_le, h.le_exponent.trans (Int.le_add_of_nonneg_right (by decide)), ?_⟩
      · have := h.digits_pos
        change 0 < d.digits / 10
        omega
      · rw [value_shift _ _ hmore.2]
        exact h.value_le
    · exact h

theorem trim_zero (fuel : Nat) (e : Int) : trim fuel ⟨0, e⟩ = ⟨0, e⟩ := by
  cases fuel with
  | zero => rfl
  | succ fuel => rw [trim, if_neg fun h => h.1 rfl]

/-- The shortest decimal of a double is zero or near it. -/
theorem shortest_cases (hx : x.IsFinite) : shortest x = ⟨0, 0⟩ ∨ IsNear x (shortest x) := by
  rw [shortest]
  split
  · exact .inl rfl
  · next hzero =>
    have hne : x.mantissa ≠ 0 := fun h => hzero (beq_iff_eq.2 h)
    rcases isNear_search hx hne 17 with h | h
    · exact .inl (by rw [h, trim_zero])
    · exact .inr (h.trim 18)

end Outbox.Decimal
