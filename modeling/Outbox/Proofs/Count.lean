import Outbox.Count

/-! Counts that are below the largest one are exact, and the number of groups that things make grows with the
number of things. -/

namespace Outbox.Count

theorem clamp_of_lt {n : Nat} (h : clamp n < top) : clamp n = n := by
  unfold clamp at h ⊢
  omega

theorem groups_eq {size : Nat} (h : 0 < size) (n : Nat) : groups n size = (n + size - 1) / size := by
  rw [groups]
  have hdiv := Nat.div_add_mod n size
  have hlt := Nat.mod_lt n h
  split
  · next hzero =>
    rw [Nat.add_zero, eq_comm, Nat.div_eq_iff h, Nat.mul_comm]
    omega
  · next hmore =>
    rw [eq_comm, Nat.div_eq_iff h, Nat.add_mul, Nat.mul_comm _ size]
    omega

/-- The groups that things make hold them all. -/
theorem le_groups_mul {size : Nat} (h : 0 < size) (n : Nat) : n ≤ groups n size * size := by
  have hdiv := Nat.div_add_mod (n + size - 1) size
  have hlt := Nat.mod_lt (n + size - 1) h
  rw [groups_eq h, Nat.mul_comm]
  omega

theorem groups_le_groups {size n m : Nat} (h : 0 < size) (hle : n ≤ m) : groups n size ≤ groups m size := by
  rw [groups_eq h, groups_eq h]
  exact Nat.div_le_div_right (by omega)

/-- One group is taken out of those that any things make. -/
theorem groups_sub {size n : Nat} (h : 0 < size) (hn : 0 < n) : groups (n - size) size + 1 = groups n size := by
  rw [groups_eq h, groups_eq h, ← Nat.add_div_right _ h]
  by_cases hle : size ≤ n
  · congr 1
    omega
  · rw [Nat.sub_eq_zero_of_le (Nat.le_of_not_le hle), Nat.zero_add, Nat.div_eq_iff h]
    have hone : (n + size - 1) / size = 1 := by
      rw [Nat.div_eq_iff h]
      omega
    rw [hone]
    omega

end Outbox.Count
