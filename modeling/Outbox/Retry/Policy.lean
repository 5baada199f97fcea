import Outbox.Count
import Outbox.Time.Span
/-! When a failed delivery is tried again: after a delay that doubles with every attempt up to a limit, and
never once the attempts are used up. -/

namespace Outbox.Retry

structure Policy where
  /-- The delay after the first attempt. -/
  base : Span := .ofMillis 5000
  /-- The longest delay. -/
  limit : Span := .ofSeconds 300
  /-- The attempts before an event is given up; none for no end of them. -/
  maxAttempts : Option Nat := some 10
deriving DecidableEq, Repr, Inhabited

/-- What becomes of a failed event. -/
inductive Disposition
  | retryAfter (delay : Span)
  | deadLetter
deriving DecidableEq, Repr, Inhabited

namespace Policy

/-- By how much the base is multiplied after so many doublings; it stops at the largest count. -/
def factor (doublings : Nat) : Nat := if doublings ≥ 64 then Count.top else 1 <<< doublings

/-- The delay after an attempt, in whole milliseconds; attempts count from 1. -/
def backoff (p : Policy) (attempt : Nat) : Span :=
  .ofMillis (min (Count.mul (Count.clamp p.base.millis) (factor (attempt - 1))) (Count.clamp p.limit.millis))

/-- Whether no attempt is left after `attempt` of them. -/
def isExhausted (p : Policy) (attempt : Int) : Bool :=
  match p.maxAttempts with
  | some most => decide (attempt.toNat ≥ most)
  | none => false

/-- The delay before the attempt after this one. -/
def delayAfter (p : Policy) (attempt : Int) : Span := p.backoff (max attempt 1).toNat

def disposition (p : Policy) (transient : Bool) (attempt : Int) : Disposition :=
  if !transient || p.isExhausted attempt then .deadLetter else .retryAfter (p.delayAfter attempt)

/-- An event whose failure does not pass, or that has no attempt left, is given up, and any other is tried again. -/
theorem disposition_cases (p : Policy) (transient : Bool) (attempt : Int) :
    ((transient = false ∨ ∃ most, p.maxAttempts = some most ∧ most ≤ attempt.toNat) ∧
      p.disposition transient attempt = .deadLetter) ∨
    ((transient = true ∧ ∀ most, p.maxAttempts = some most → attempt.toNat < most) ∧
      p.disposition transient attempt = .retryAfter (p.delayAfter attempt)) := by
  cases transient with
  | false => exact .inl ⟨.inl rfl, rfl⟩
  | true =>
    rw [disposition, isExhausted]
    cases hmost : p.maxAttempts with
    | none => exact .inr ⟨⟨rfl, nofun⟩, rfl⟩
    | some most =>
      by_cases hle : most ≤ attempt.toNat
      · exact .inl ⟨.inr ⟨most, rfl, hle⟩, if_pos (by simpa using hle)⟩
      · refine .inr ⟨⟨rfl, fun m hm => ?_⟩, if_neg (by simpa using hle)⟩
        obtain rfl := Option.some.inj hm
        exact Nat.lt_of_not_le hle

end Policy

end Outbox.Retry
