import Outbox.Time.Instant
import Outbox.Time.Calendar
/-! Dates and times as text, after RFC 3339. A written fraction has 0, 3, 6 or 9 digits, the fewest
that are exact; a year outside 0 to 9999 has a sign. Reading accepts more than is written: blanks
between the parts, short numbers, any offset from UTC, leap seconds. -/

namespace Outbox

/-- A time of the UTC day: an instant, or the leap second that ends where the instant's second
starts, so many nanoseconds in. -/
structure Timestamp where
  instant : Instant
  inLeapSecond : Bool := false
deriving DecidableEq

namespace Timestamp

instance : Coe Instant Timestamp := ⟨fun i => ⟨i, false⟩⟩

/-! ### Writing -/

/-- A number in at least `width` digits. -/
def padded (width n : Nat) : List Char :=
  let digits := (Nat.repr n).toList
  List.replicate (width - digits.length) '0' ++ digits

def writeYear (y : Int) : List Char :=
  if 0 ≤ y ∧ y ≤ 9999 then padded 4 y.toNat
  else (if y < 0 then '-' else '+') :: padded 4 y.natAbs

/-- The fraction of a second, in the fewest groups of three digits that are exact. -/
def writeFraction (nanos : Nat) : List Char :=
  if nanos = 0 then []
  else if nanos % 1000000 = 0 then '.' :: padded 3 (nanos / 1000000)
  else if nanos % 1000 = 0 then '.' :: padded 6 (nanos / 1000)
  else '.' :: padded 9 nanos

/-- The time without its offset. The leap second is second 60 of the minute before. -/
def writeLocal (t : Timestamp) : List Char :=
  let nanos := if t.inLeapSecond then t.instant.nanos - 1000000000 else t.instant.nanos
  let date := Calendar.dateOf (nanos / 86400000000000)
  let ofDay := (nanos % 86400000000000).toNat
  let second := ofDay / 1000000000
  writeYear date.year ++ '-' :: padded 2 date.month ++ '-' :: padded 2 date.day ++ 'T' ::
    padded 2 (second / 3600) ++ ':' :: padded 2 (second / 60 % 60) ++ ':' ::
    padded 2 (second % 60 + if t.inLeapSecond then 1 else 0) ++ writeFraction (ofDay % 1000000000)

/-- The text of a time in a message, such as `2024-01-01T00:00:00.500Z`. -/
def write (t : Timestamp) : String := String.ofList (t.writeLocal ++ ['Z'])

/-- The text of a time with its offset as a number, such as `2024-01-01T00:00:00+00:00`. -/
def writeNumericOffset (t : Timestamp) : String := String.ofList (t.writeLocal ++ "+00:00".toList)

/-! ### Reading -/

/-- The white space of Unicode. -/
def isBlank (c : Char) : Bool :=
  let n := c.toNat
  (decide (9 ≤ n) && decide (n ≤ 13)) || n == 32 || n == 0x85 || n == 0xA0 || n == 0x1680 ||
    (decide (0x2000 ≤ n) && decide (n ≤ 0x200A)) || n == 0x2028 || n == 0x2029 || n == 0x202F ||
    n == 0x205F || n == 0x3000

def skipBlanks (cs : List Char) : List Char := cs.dropWhile isBlank

/-- The value of a run of digits. -/
def digitsValue (cs : List Char) : Nat := cs.foldl (fun n c => n * 10 + (c.toNat - 48)) 0

/-- One to `most` digits after blanks. -/
def readNumber (most : Nat) (cs : List Char) : Option (Nat × List Char) :=
  let cs := skipBlanks cs
  let run := (cs.take most).takeWhile Char.isDigit
  if run.isEmpty then none else some (digitsValue run, cs.drop run.length)

/-- A year: up to four digits, or a sign and any number of them. -/
def readYear (cs : List Char) : Option (Int × List Char) :=
  match skipBlanks cs with
  | '-' :: rest => if rest.head?.any Char.isDigit then
      (readNumber rest.length rest).map fun (n, r) => (-(n : Int), r) else none
  | '+' :: rest => if rest.head?.any Char.isDigit then
      (readNumber rest.length rest).map fun (n, r) => ((n : Int), r) else none
  | cs => (readNumber 4 cs).map fun (n, r) => ((n : Int), r)

def expect (c : Char) (cs : List Char) : Option (List Char) :=
  match skipBlanks cs with
  | d :: rest => if d = c then some rest else none
  | [] => none

/-- The nanoseconds after a point; digits past the ninth are dropped. -/
def readFraction (cs : List Char) : Option (Nat × List Char) :=
  match cs with
  | '.' :: rest =>
    let run := rest.takeWhile Char.isDigit
    let kept := run.take 9
    if run.isEmpty then none
    else some (digitsValue (kept ++ List.replicate (9 - kept.length) '0'), rest.drop run.length)
  | _ => some (0, cs)

def isColonOrBlank (c : Char) : Bool := c == ':' || isBlank c

/-- The two digits of an offset's hours or minutes. -/
def readPair (cs : List Char) : Option (Nat × List Char) :=
  match cs with
  | a :: b :: rest =>
    if a.isDigit && b.isDigit then some (digitsValue [a, b], rest) else none
  | _ => none

/-- The seconds that an offset lies east of UTC; less than a day. -/
def readOffset (cs : List Char) : Option (Int × List Char) := do
  match cs with
  | 'Z' :: rest | 'z' :: rest => return (0, rest)
  | a :: b :: c :: rest =>
    if [a.toUpper, b.toUpper, c.toUpper] == ['U', 'T', 'C'] then return (0, rest)
  | _ => pure ()
  let (sign, rest) ← match cs with
    | '+' :: rest => some ((1 : Int), rest)
    | '-' :: rest => some (-1, rest)
    | '−' :: rest => some (-1, rest)
    | _ => none
  let (hours, rest) ← readPair rest
  let (minutes, rest) ← readPair (rest.dropWhile isColonOrBlank)
  if minutes < 60 && hours < 24 then return (sign * (hours * 3600 + minutes * 60), rest) else none

def read? (text : String) : Option Timestamp := do
  let (year, cs) ← readYear text.toList
  let cs ← expect '-' cs
  let (month, cs) ← readNumber 2 cs
  let cs ← expect '-' cs
  let (day, cs) ← readNumber 2 cs
  let cs ← match cs with
    | 'T' :: rest | 't' :: rest | ' ' :: rest => some rest
    | _ => none
  let (hour, cs) ← readNumber 2 cs
  let cs ← expect ':' cs
  let (minute, cs) ← readNumber 2 cs
  let cs ← expect ':' cs
  let (second, cs) ← readNumber 2 cs
  let (nanos, cs) ← readFraction cs
  let (east, cs) ← readOffset (skipBlanks cs)
  guard (skipBlanks cs).isEmpty
  let date : Calendar.Date := ⟨year, month, day⟩
  guard (date.isValid && hour < 24 && minute < 60 && second ≤ 60)
  let seconds := date.dayNumber * 86400 + hour * 3600 + minute * 60 + second
  let localTime ← Instant.ofNanos? (seconds * 1000000000 + nanos)
  let instant ← Instant.ofNanos? (localTime.nanos - east * 1000000000)
  return ⟨instant, second == 60⟩

end Timestamp

end Outbox
