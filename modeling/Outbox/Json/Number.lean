import Outbox.Count
import Outbox.Json.Value
import Outbox.Json.Fault
/-! Numbers of JSON. An integer that fits 64 bits stays one. Any other number becomes a double: of its
digits those are kept that fit 64 bits, and the double of these is multiplied or divided once by a
power of ten, or divided by the largest one several times. -/

namespace Outbox.Json

def isDigit (b : UInt8) : Bool := 48 ≤ b && b ≤ 57

def digitValue (b : UInt8) : Nat := b.toNat - 48

/-- The digits at the start, and what follows them. -/
def spanDigits (bytes : Bytes) : Bytes × Bytes := bytes.span isDigit

/-- Digits appended to a number as long as it stays at most `top`, and the digits left over. -/
def accumulate (top : Nat) (n : Nat) : Bytes → Nat × Bytes
  | [] => (n, [])
  | b :: rest =>
    let n' := n * 10 + digitValue b
    if n' ≤ top then accumulate top n' rest else (n, b :: rest)

/-- The largest power of ten that a double is multiplied or divided by. -/
def powerLimit : Nat := 308

/-- A double divided by `10 ^ e`, in steps of the largest power. -/
def divideByPower (x : Double) (e : Nat) : Double :=
  if e ≤ powerLimit then x.div (.powerOfTen e)
  else if x.isZero then x
  else divideByPower (x.div (.powerOfTen powerLimit)) (e - powerLimit)
termination_by e
decreasing_by simp only [powerLimit] at *; omega

/-- The double of `significand * 10 ^ exponent`; none if it is out of range. -/
def scaledDouble? (significand : Nat) (exponent : Int) : Option Double :=
  let x := Double.ofNat significand
  if exponent < 0 then some (divideByPower x (-exponent).toNat)
  else if exponent ≤ powerLimit then
    let y := x.mul (.powerOfTen exponent.toNat)
    if y.isInfinite then none else some y
  else if x.isZero then some x else none

def finishDouble (negative : Bool) (significand : Nat) (exponent : Int) (rest : Bytes) : Outcome Numeral :=
  match scaledDouble? significand exponent with
  | some x => .ok (.double { x with negative := negative }, rest)
  | none => stopHere .numberOutOfRange rest

/-- The largest power of ten that an exponent may write. -/
def exponentTop : Nat := (1 <<< 31) - 1

def clampExponent (e : Int) : Int := max (-2147483648) (min e 2147483647)

/-- A number from its exponent on, after the letter. -/
def readExponent (negative : Bool) (significand : Nat) (exponent : Int) (bytes : Bytes) :
    Outcome Numeral :=
  let (down, digits) := match bytes with
    | 43 :: rest => (false, rest)
    | 45 :: rest => (true, rest)
    | _ => (false, bytes)
  match digits with
  | [] => stopHere .eofInValue []
  | b :: rest =>
    if !isDigit b then stopHere .invalidNumber rest
    else
      let (run, after) := spanDigits digits
      match accumulate exponentTop 0 run with
      | (e, []) =>
        finishDouble negative significand
          (clampExponent (if down then exponent - e else exponent + e)) after
      | (_, _ :: ignored) =>
        if significand ≠ 0 ∧ !down then stopHere .numberOutOfRange (ignored ++ after)
        else .ok (.double (.zero negative), after)

def readExponentOrEnd (negative : Bool) (significand : Nat) (exponent : Int) (bytes : Bytes) :
    Outcome Numeral :=
  match bytes with
  | 101 :: rest | 69 :: rest => readExponent negative significand exponent rest
  | _ => finishDouble negative significand exponent bytes

/-- A number from its fraction on, after the point. -/
def readFraction (negative : Bool) (significand : Nat) (exponent : Int) (bytes : Bytes) :
    Outcome Numeral :=
  let (run, after) := spanDigits bytes
  if run.isEmpty then
    stopAtNext (if bytes.isEmpty then .eofInValue else .invalidNumber) bytes
  else
    let (kept, dropped) := accumulate Count.top significand run
    readExponentOrEnd negative kept (exponent - (run.length - dropped.length : Nat)) after

/-- An integer without fraction and exponent. -/
def integerNumeral (negative : Bool) (n : Nat) : Numeral :=
  if !negative then .integer n
  else if n = 0 ∨ n > 1 <<< 63 then .double { Double.ofNat n with negative := true }
  else .integer (-n)

/-- A number after its sign. -/
def readNumber (negative : Bool) (bytes : Bytes) : Outcome Numeral :=
  match bytes with
  | [] => stopHere .eofInValue []
  | b :: rest =>
    if !isDigit b then stopHere .invalidNumber rest
    else if b = 48 ∧ rest.head?.any isDigit then stopAtNext .invalidNumber rest
    else
      let (run, after) := spanDigits bytes
      let (significand, dropped) := accumulate Count.top 0 run
      let exponent : Int := dropped.length
      match after with
      | 46 :: fraction => readFraction negative significand exponent fraction
      | 101 :: e | 69 :: e => readExponent negative significand exponent e
      | _ =>
        if dropped.isEmpty then .ok (integerNumeral negative significand, after)
        else finishDouble negative significand exponent after

/-! ### Numbers that are skipped -/

def skipExponent (bytes : Bytes) : Outcome Unit :=
  let digits := match bytes with
    | 43 :: rest | 45 :: rest => rest
    | _ => bytes
  let (run, after) := spanDigits digits
  if run.isEmpty then stopHere .invalidNumber (digits.drop 1) else .ok ((), after)

def skipFraction (bytes : Bytes) : Outcome Unit :=
  let (run, after) := spanDigits bytes
  if run.isEmpty then stopAtNext .invalidNumber bytes
  else match after with
    | 101 :: e | 69 :: e => skipExponent e
    | _ => .ok ((), after)

/-- A number after its sign whose value is not needed: it may have any size. -/
def skipNumber (bytes : Bytes) : Outcome Unit :=
  match bytes with
  | [] => stopHere .invalidNumber []
  | b :: rest =>
    if !isDigit b then stopHere .invalidNumber rest
    else if b = 48 ∧ rest.head?.any isDigit then stopAtNext .invalidNumber rest
    else
      match (spanDigits bytes).2 with
      | 46 :: fraction => skipFraction fraction
      | 101 :: e | 69 :: e => skipExponent e
      | after => .ok ((), after)

end Outbox.Json
