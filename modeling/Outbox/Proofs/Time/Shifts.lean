import Outbox.Proofs.Relay.Endurance
import Outbox.Proofs.Store.Queue

/-! Moving an instant by a span stops at the ends of the calendar and never turns back. A longer span moves it at
least as far as a shorter one, except across the longest span that a date can be moved by: all beyond it count as a
century, and so are overtaken by the longer of the spans below it. -/

namespace Outbox

namespace Span

/-- The span exceeds a century and a date can be moved by it, while the other is too long for that and counts as a
century. -/
def Overtakes (s s' : Span) : Prop :=
  century.nanos < s.nanos ∧ s.nanos ≤ longestShift.nanos ∧ longestShift.nanos < s'.nanos

instance (s s' : Span) : Decidable (s.Overtakes s') := inferInstanceAs (Decidable (_ ∧ _ ∧ _))

variable {s s' : Span}

theorem shift_of_le (h : s.nanos ≤ longestShift.nanos) : s.shift = s := if_pos h

theorem shift_of_lt (h : longestShift.nanos < s.nanos) : s.shift = century := if_neg (Nat.not_le.mpr h)

theorem century_le_longestShift : century.nanos ≤ longestShift.nanos := by decide

theorem shift_century : century.shift = century := shift_of_le century_le_longestShift

theorem Overtakes.shift_lt (h : s.Overtakes s') : s'.shift.nanos < s.shift.nanos := by
  rw [shift_of_lt h.2.2, shift_of_le h.2.1]
  exact h.1

theorem shift_le_shift (h : s.nanos ≤ s'.nanos) (hover : ¬s.Overtakes s') : s.shift.nanos ≤ s'.shift.nanos := by
  rcases Nat.lt_or_ge longestShift.nanos s'.nanos with hlong | hshort
  · rw [shift_of_lt hlong]
    rcases Nat.lt_or_ge longestShift.nanos s.nanos with hlong' | hshort'
    · rw [shift_of_lt hlong']
    · rw [shift_of_le hshort']
      exact Nat.not_lt.mp fun hcentury => hover ⟨hcentury, hshort', hlong⟩
  · rw [shift_of_le hshort, shift_of_le (h.trans hshort)]
    exact h

end Span

namespace Instant

variable {i j : Instant} {s s' : Span}

theorem nanos_after (i : Instant) (s : Span) :
    (i.after s).nanos = min (i.nanos + s.shift.nanos) Calendar.lastNanos := by
  have hfirst := i.first_le
  rw [after, plus?, ofNanos?]
  split
  · next hdate => exact (min_eq_left hdate.2).symm
  · next hdate =>
    change Calendar.lastNanos = _
    omega

theorem nanos_before (i : Instant) (s : Span) :
    (i.before s).nanos = max (i.nanos - s.shift.nanos) Calendar.firstNanos := by
  have hlast := i.le_last
  rw [before, minus?, ofNanos?]
  split
  · next hdate => exact (max_eq_left hdate.1).symm
  · next hdate =>
    change Calendar.firstNanos = _
    omega

theorem before_le (i : Instant) (s : Span) : i.before s ≤ i := by
  have hfirst := i.first_le
  change (i.before s).nanos ≤ i.nanos
  rw [nanos_before]
  omega

theorem after_le_after_of_le (h : i ≤ j) (s : Span) : i.after s ≤ j.after s := by
  change i.nanos ≤ j.nanos at h
  change (i.after s).nanos ≤ (j.after s).nanos
  rw [nanos_after, nanos_after]
  omega

theorem after_le_after (i : Instant) (h : s.shift.nanos ≤ s'.shift.nanos) : i.after s ≤ i.after s' := by
  change (i.after s).nanos ≤ (i.after s').nanos
  rw [nanos_after, nanos_after]
  omega

theorem before_le_before (i : Instant) (h : s.shift.nanos ≤ s'.shift.nanos) : i.before s' ≤ i.before s := by
  change (i.before s').nanos ≤ (i.before s).nanos
  rw [nanos_before, nanos_before]
  omega

/-- The longer span leads at least as far, unless the shorter one overtakes it and a century is not enough to reach the
end of the calendar. -/
theorem after_le_after_iff (i : Instant) (h : s.nanos ≤ s'.nanos) :
    i.after s ≤ i.after s' ↔ (s.Overtakes s' → i.after .century = last) := by
  constructor
  · intro hle hover
    have hlt := hover.shift_lt
    change (i.after s).nanos ≤ (i.after s').nanos at hle
    rw [nanos_after, nanos_after] at hle
    rw [eq_iff, nanos_after, Span.shift_century]
    rw [Span.shift_of_lt hover.2.2] at hle hlt
    change _ = Calendar.lastNanos
    omega
  · intro hend
    by_cases hover : s.Overtakes s'
    · have hlast : i.after s' = last := by
        rw [after, plus?, Span.shift_of_lt hover.2.2, ← Span.shift_century]
        exact hend hover
      rw [hlast]
      exact (i.after s).le_last
    · exact i.after_le_after (Span.shift_le_shift h hover)

theorem before_le_before_iff (i : Instant) (h : s.nanos ≤ s'.nanos) :
    i.before s' ≤ i.before s ↔ (s.Overtakes s' → i.before .century = first) := by
  constructor
  · intro hle hover
    have hlt := hover.shift_lt
    change (i.before s').nanos ≤ (i.before s).nanos at hle
    rw [nanos_before, nanos_before] at hle
    rw [eq_iff, nanos_before, Span.shift_century]
    rw [Span.shift_of_lt hover.2.2] at hle hlt
    change _ = Calendar.firstNanos
    omega
  · intro hend
    by_cases hover : s.Overtakes s'
    · have hfirst : i.before s' = first := by
        rw [before, minus?, Span.shift_of_lt hover.2.2, ← Span.shift_century]
        exact hend hover
      rw [hfirst]
      exact (i.before s).first_le
    · exact i.before_le_before (Span.shift_le_shift h hover)

/-! ### Clocks -/

/-- What a clock that moves shows so many milliseconds later. -/
def later (i : Instant) (millis : Nat) : Instant := i.after (.ofMillis millis)

theorem later_le_later (i : Instant) {millis millis' : Nat} (h : millis ≤ millis') (hshort : millis' < 2 ^ 63) :
    i.later millis ≤ i.later millis' := by
  have hspan : (Span.ofMillis millis).nanos ≤ (Span.ofMillis millis').nanos := Nat.mul_le_mul_right _ h
  have hlong : (Span.ofMillis millis').nanos ≤ Span.longestShift.nanos :=
    Nat.mul_le_mul_right _ (Nat.le_pred_of_lt hshort)
  exact i.after_le_after (Span.shift_le_shift hspan fun hover => Nat.not_lt.2 hlong hover.2.2)

end Instant

end Outbox
