/-! Lengths of time in nanoseconds, and the text that shows one to a person. -/

namespace Outbox

/-- A length of time. -/
structure Span where
  nanos : Nat
deriving DecidableEq, Repr, Inhabited

namespace Span

def ofMillis (n : Nat) : Span := ⟨n * 1000000⟩

def ofSeconds (n : Nat) : Span := ⟨n * 1000000000⟩

def ofParts (seconds nanos : Nat) : Span := ⟨seconds * 1000000000 + nanos⟩

def seconds (s : Span) : Nat := s.nanos / 1000000000

/-- Nanoseconds past the last whole second. -/
def subsecond (s : Span) : Nat := s.nanos % 1000000000

/-- Whole milliseconds, rounded down. -/
def millis (s : Span) : Nat := s.nanos / 1000000

/-- Whole milliseconds, rounded up: a timer rings at the next one. -/
def timerMillis (s : Span) : Nat := (s.nanos + 999999) / 1000000

/-! ### Arithmetic on dates -/

/-- The longest span that a date can be moved by: the milliseconds that fit 63 bits. -/
def longestShift : Span := ofMillis ((1 <<< 63) - 1)

/-- A hundred years of 365 days. -/
def century : Span := ofSeconds (36500 * 86400)

/-- The span that a date is moved by: the span itself, or a century where it is too long. -/
def shift (s : Span) : Span := if s.nanos ≤ longestShift.nanos then s else century

/-! ### Text -/

/-- The first `width` decimal places of `part`, without trailing zeros. -/
def places (width part : Nat) : String :=
  let digits := (Nat.repr part).toList
  let padded := List.replicate (width - digits.length) '0' ++ digits
  String.ofList (padded.reverse.dropWhile (· == '0')).reverse

/-- `count` units and a fraction of `width` decimal places. -/
def amount (count width part : Nat) (unit : String) : String :=
  let fraction := places width part
  Nat.repr count ++ (if fraction.isEmpty then "" else "." ++ fraction) ++ unit

/-- The largest unit that the span fills, exactly: `1.5s`, `200ms`, `1.5µs`, `0ns`. -/
def describe (s : Span) : String :=
  if s.nanos ≥ 1000000000 then amount s.seconds 9 s.subsecond "s"
  else if s.nanos ≥ 1000000 then amount (s.nanos / 1000000) 6 (s.nanos % 1000000) "ms"
  else if s.nanos ≥ 1000 then amount (s.nanos / 1000) 3 (s.nanos % 1000) "µs"
  else Nat.repr s.nanos ++ "ns"

end Span

end Outbox
