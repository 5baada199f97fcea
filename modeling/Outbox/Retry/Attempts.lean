import Outbox.Retry.Policy
/-! Trying an operation again at once, with delays between the attempts, while its failures are transient. -/

namespace Outbox.Retry

/-- How it ended. -/
inductive Verdict (ε α : Type)
  | succeeded (a : α)
  /-- The last attempt failed too. -/
  | gaveUp (e : ε)
  /-- The failure was not transient. -/
  | refused (e : ε)

/-- An operation that is told the number of the attempt, on a state of type `σ` in which it also waits. -/
structure Operation (σ ε α : Type) where
  run : Nat → σ → Except ε α × σ
  isTransient : ε → Bool
  wait : Span → σ → σ

/-- The attempt of this number, and up to `more` after it. -/
def attemptFrom {σ ε α : Type} (p : Policy) (op : Operation σ ε α) :
    (more attempt : Nat) → σ → Verdict ε α × σ
  | more, attempt, s =>
    match op.run attempt s with
    | (.ok a, s) => (.succeeded a, s)
    | (.error e, s) =>
      if !op.isTransient e then (.refused e, s)
      else match more with
        | 0 => (.gaveUp e, s)
        | more + 1 => attemptFrom p op more (attempt + 1) (op.wait (p.backoff attempt) s)

/-- At most `most` attempts, but always one. -/
def attempts {σ ε α : Type} (p : Policy) (op : Operation σ ε α) (most : Nat) (s : σ) : Verdict ε α × σ :=
  attemptFrom p op (most - 1) 1 s

/-! ### Operations with given outcomes -/

/-- The attempts made, latest first, with the milliseconds passed at each. -/
structure Trace where
  elapsed : Nat := 0
  calls : List (Nat × Nat) := []
deriving DecidableEq, Repr, Inhabited

/-- The operation whose attempt number `n` comes out as `outcome n`. -/
def scripted {ε α : Type} (isTransient : ε → Bool) (outcome : Nat → Except ε α) : Operation Trace ε α where
  run attempt t := (outcome attempt, { t with calls := (attempt, t.elapsed) :: t.calls })
  isTransient := isTransient
  wait delay t := { t with elapsed := t.elapsed + delay.timerMillis }

end Outbox.Retry
