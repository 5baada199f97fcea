import Outbox.Proofs.Retry.Backoff
import Outbox.Proofs.Time.Shifts

/-! When a failed row is due again. A mark of a failure records the instant that lies the delay of the policy after it,
or the end of the calendar. The delays of more attempts lead to later instants as long as dates can be moved by them;
the first delay that is too long for that counts as a century and may lead back. -/

namespace Outbox.Retry.Policy

/-- A failed row is due the delay of the policy after its failure, within the calendar. More attempts put that instant
off or leave it, except where the longer delay is overtaken by the shorter one and a century does not lead to the end
of the calendar; a policy whose limit still moves dates has no such delays. Any span moves an instant forwards and
backwards by itself, or by the century that stands for it, up to the ends of the calendar. Of two spans the longer one
moves it no less, with the same exception. -/
theorem retries_scheduled (p : Policy) {t : Table} {id : Int} {row : Row} (hrow : t.find? id = some row)
    (hsending : row.status = .sending) (cause : String) (now : Instant) :
    (∀ n, ((t.markFailed id cause (p.backoff n) now).2.find? id).map Row.nextRetryAt =
      some (now.after (p.backoff n))) ∧
    (∀ n m, n ≤ m → (now.after (p.backoff n) ≤ now.after (p.backoff m) ↔
      ((p.backoff n).Overtakes (p.backoff m) → now.after .century = .last))) ∧
    (p.limit.nanos ≤ Span.longestShift.nanos → ∀ n m, n ≤ m →
      now.after (p.backoff n) ≤ now.after (p.backoff m)) ∧
    (∀ s : Span, now ≤ now.after s ∧ now.before s ≤ now ∧
      (now.after s).nanos = min (now.nanos + s.shift.nanos) Calendar.lastNanos ∧
      (now.before s).nanos = max (now.nanos - s.shift.nanos) Calendar.firstNanos) ∧
    ∀ s s' : Span, s.nanos ≤ s'.nanos →
      (now.after s ≤ now.after s' ↔ (s.Overtakes s' → now.after .century = .last)) ∧
      (now.before s' ≤ now.before s ↔ (s.Overtakes s' → now.before .century = .first)) := by
  refine ⟨fun n => ?_, fun n m hle => now.after_le_after_iff (p.backoff_mono hle), fun hlimit n m hle => ?_,
    fun s => ⟨now.le_after s, now.before_le s, now.nanos_after s, now.nanos_before s⟩,
    fun s s' hle => ⟨now.after_le_after_iff hle, now.before_le_before_iff hle⟩⟩
  · have hfailed := (Table.settle_of_sending hrow hsending (·.failed cause (p.backoff n) now)
      (·.id_failed cause (p.backoff n) now)).2.1
    rw [Table.markFailed, hfailed]
    rfl
  · have hshort : (p.backoff m).nanos ≤ Span.longestShift.nanos := (p.backoff_le_limit m).trans hlimit
    exact (now.after_le_after_iff (p.backoff_mono hle)).2 fun hover => absurd hover.2.2 (Nat.not_lt.2 hshort)

/-- The row of `single` is being sent, and fails early and late under the usual policy. -/
theorem single_scheduled :
    let p : Policy := {}
    let sent := Table.single.after (.claim .whole 10 .epoch (.ofSeconds 60))
    ((sent.markFailed 1 "broker down" (p.backoff 3) .epoch).2.find? 1).map Row.nextRetryAt =
      some { nanos := 20000000000 } ∧
    Instant.epoch.after (p.backoff 3) ≤ Instant.epoch.after (p.backoff 7) := by
  intro p sent
  obtain ⟨hdue, -, hgrows, -⟩ := @retries_scheduled p sent 1 _ (Option.some_get (by decide +kernel)).symm
    (by decide +kernel) "broker down" .epoch
  exact ⟨(hdue 3).trans (by decide +kernel), hgrows (by decide) 3 7 (by decide)⟩

/-- A base of 2⁶² milliseconds leads to the end of the calendar at once, but two doublings later a delay is too long
for a date to be moved by it, and the row is due a century after the failure; nor is that the end of the calendar or
the exact instant. -/
theorem lasting_schedule_shrinks :
    (¬∀ (p : Policy) (t : Table) (id : Int) (row : Row) (cause : String) (now : Instant) (n m : Nat),
      t.find? id = some row → row.status = .sending → n ≤ m →
      ∀ due ∈ ((t.markFailed id cause (p.backoff n) now).2.find? id).map Row.nextRetryAt,
      ∀ due' ∈ ((t.markFailed id cause (p.backoff m) now).2.find? id).map Row.nextRetryAt, due ≤ due') ∧
    ¬∀ (now : Instant) (s : Span), (now.after s).nanos = min (now.nanos + s.nanos) Calendar.lastNanos := by
  refine ⟨fun h => ?_, fun h => ?_⟩
  · have hle := h ⟨.ofMillis (2 ^ 62), .ofMillis (2 ^ 64 - 1), none⟩
      (Table.single.after (.claim .whole 10 .epoch (.ofSeconds 60))) 1 _ "broker down" .epoch 1 3
      (Option.some_get (by decide +kernel)).symm (by decide +kernel) (by decide) .last (by decide +kernel)
      (Instant.epoch.after .century) (by decide +kernel)
    exact absurd hle (by decide)
  · exact absurd (h .epoch (.ofMillis (2 ^ 63))) (by decide)

end Outbox.Retry.Policy
