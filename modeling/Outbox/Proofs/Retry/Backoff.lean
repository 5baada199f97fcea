import Mathlib.Algebra.Group.Nat.Defs
import Mathlib.Order.Lattice
import Outbox.Retry.Policy

/-! The delay after an attempt is the doubled base in unbounded arithmetic, held down by the limit of the policy
and by the largest count: where a step of the computation stops at 64 bits, the result has stopped there too. -/

namespace Outbox

namespace Count

/-- A product that is clamped at the end need not have its factors clamped before. -/
theorem clamp_mul_clamp (a b : Nat) : clamp (clamp a * b) = clamp (a * b) := by
  rcases Nat.le_total a top with hle | hge
  · rw [show clamp a = a from Nat.min_eq_left hle]
  · rcases Nat.eq_zero_or_pos b with rfl | hpos
    · rw [Nat.mul_zero, Nat.mul_zero]
    · have htop : top ≤ top * b := Nat.le_mul_of_pos_right top hpos
      have hmul : top * b ≤ a * b := Nat.mul_le_mul_right b hge
      rw [show clamp a = top from Nat.min_eq_right hge]
      exact (Nat.min_eq_right htop).trans (Nat.min_eq_right (htop.trans hmul)).symm

end Count

namespace Retry.Policy

theorem factor_of_lt {doublings : Nat} (h : doublings < 64) : factor doublings = 2 ^ doublings := by
  rw [factor, if_neg (Nat.not_le.mpr h), Nat.one_shiftLeft]

/-- From 64 doublings on, the factor and the power of two both lead past the largest count. -/
theorem clamp_mul_factor (a doublings : Nat) :
    Count.clamp (a * factor doublings) = Count.clamp (a * 2 ^ doublings) := by
  rcases Nat.lt_or_ge doublings 64 with hlt | hge
  · rw [factor_of_lt hlt]
  · rcases Nat.eq_zero_or_pos a with rfl | hpos
    · rw [Nat.zero_mul, Nat.zero_mul]
    · have hpow : 2 ^ 64 ≤ 2 ^ doublings := Nat.pow_le_pow_right (by decide) hge
      have htop : Count.top ≤ 2 ^ doublings := (show Count.top ≤ 2 ^ 64 by decide).trans hpow
      rw [factor, if_pos hge]
      exact (Nat.min_eq_right (Nat.le_mul_of_pos_left _ hpos)).trans
        (Nat.min_eq_right (htop.trans (Nat.le_mul_of_pos_left _ hpos))).symm

variable (p : Policy)

theorem backoff_eq (n : Nat) :
    p.backoff n = .ofMillis (min (p.base.millis * 2 ^ (n - 1)) (min p.limit.millis Count.top)) := by
  rw [backoff, Count.mul, Count.clamp_mul_clamp, clamp_mul_factor, Count.clamp, Count.clamp]
  congr 1
  omega

theorem backoff_mono {n m : Nat} (h : n ≤ m) : (p.backoff n).nanos ≤ (p.backoff m).nanos := by
  have hpow : p.base.millis * 2 ^ (n - 1) ≤ p.base.millis * 2 ^ (m - 1) :=
    Nat.mul_le_mul_left _ (Nat.pow_le_pow_right (by decide) (Nat.sub_le_sub_right h 1))
  rw [backoff_eq, backoff_eq]
  exact Nat.mul_le_mul_right _ (inf_le_inf_right _ hpow)

theorem backoff_le_limit (n : Nat) : (p.backoff n).nanos ≤ p.limit.nanos := by
  have hle : min (p.base.millis * 2 ^ (n - 1)) (min p.limit.millis Count.top) ≤ p.limit.millis :=
    (min_le_right _ _).trans (min_le_left _ _)
  rw [backoff_eq]
  exact (Nat.mul_le_mul_right _ hle).trans (Nat.div_mul_le_self _ _)

/-- After any number of attempts the delay is the base, doubled for every attempt but the first, unless the limit of
the policy or 64 bits of milliseconds are less; no step on the way to it loses anything else. It grows with the
attempts and stays within the limit. -/
theorem backoff_closed_form :
    (∀ n, p.backoff n =
      .ofMillis (min (p.base.millis * 2 ^ (max n 1 - 1)) (min p.limit.millis (2 ^ 64 - 1)))) ∧
    Monotone (fun n => (p.backoff n).nanos) ∧ ∀ n, (p.backoff n).nanos ≤ p.limit.nanos := by
  refine ⟨fun n => ?_, fun _ _ => p.backoff_mono, p.backoff_le_limit⟩
  have hattempt : n - 1 = max n 1 - 1 := by omega
  rw [backoff_eq, hattempt]
  rfl

/-- The smallest base meets the largest count between its 64th and its 65th attempt. -/
example :
    let p : Policy := ⟨.ofMillis 1, .ofSeconds (2 ^ 64 - 1), none⟩
    p.backoff 64 = .ofMillis (2 ^ 63) ∧ p.backoff 65 = .ofMillis (2 ^ 64 - 1) := by decide

end Retry.Policy

end Outbox
