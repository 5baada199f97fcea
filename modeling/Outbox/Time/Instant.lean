import Outbox.Time.Span
/-! Points in time within the range of the calendar, and moving one by a span. -/

namespace Outbox

namespace Calendar

/-- Nanoseconds from the Unix epoch to the start of the year -262143. -/
def firstNanos : Int := -8334601228800000000000

/-- Nanoseconds from the Unix epoch to the last nanosecond of the year 262142. -/
def lastNanos : Int := 8210266876799999999999

end Calendar

/-- A point in time, in nanoseconds since the Unix epoch. -/
structure Instant where
  nanos : Int
  first_le : Calendar.firstNanos ≤ nanos := by decide
  le_last : nanos ≤ Calendar.lastNanos := by decide
deriving DecidableEq

namespace Instant

instance : Inhabited Instant := ⟨{ nanos := 0 }⟩

instance : LE Instant := ⟨fun a b => a.nanos ≤ b.nanos⟩

instance : LT Instant := ⟨fun a b => a.nanos < b.nanos⟩

instance (a b : Instant) : Decidable (a ≤ b) := inferInstanceAs (Decidable (a.nanos ≤ b.nanos))

instance (a b : Instant) : Decidable (a < b) := inferInstanceAs (Decidable (a.nanos < b.nanos))

def epoch : Instant := { nanos := 0 }

def first : Instant := { nanos := Calendar.firstNanos }

def last : Instant := { nanos := Calendar.lastNanos }

def ofNanos? (n : Int) : Option Instant :=
  if h : Calendar.firstNanos ≤ n ∧ n ≤ Calendar.lastNanos then some ⟨n, h.1, h.2⟩ else none

def ofMicros? (n : Int) : Option Instant := ofNanos? (n * 1000)

/-- Whole microseconds since the epoch, rounded down. -/
def micros (i : Instant) : Int := i.nanos / 1000

/-- Whole milliseconds since the epoch, rounded down; none before it. -/
def clockMillis (i : Instant) : Nat := (i.nanos / 1000000).toNat

def plus? (i : Instant) (s : Span) : Option Instant := ofNanos? (i.nanos + s.shift.nanos)

def minus? (i : Instant) (s : Span) : Option Instant := ofNanos? (i.nanos - s.shift.nanos)

/-- The instant `s` later, or the last one. -/
def after (i : Instant) (s : Span) : Instant := (i.plus? s).getD last

/-- The instant `s` earlier, or the first one. -/
def before (i : Instant) (s : Span) : Instant := (i.minus? s).getD first

/-- The instant so many microseconds later, or earlier for a negative number. -/
def shifted (i : Instant) (micros : Int) : Instant :=
  let span : Span := ⟨micros.natAbs * 1000⟩
  if micros < 0 then i.before span else i.after span

end Instant

end Outbox
