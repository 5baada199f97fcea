import Outbox.Decimal.Integer
/-! Double-precision numbers in exact arithmetic: a 53-bit mantissa times a power of two. A ratio of
naturals is rounded to the nearest such number, a tie to the even mantissa; products and quotients are
rounded ratios. -/

namespace Outbox

/-- The double `mantissa * 2 ^ exponent`, with a sign. -/
structure Double where
  negative : Bool
  mantissa : Nat
  exponent : Int
deriving DecidableEq, Repr, Inhabited

namespace Double

/-- The exponent of the smallest doubles. -/
def lowestExponent : Int := -1074

/-- The exponent of the largest doubles. -/
def highestExponent : Int := 971

def zero (negative : Bool) : Double := ⟨negative, 0, lowestExponent⟩

def isZero (x : Double) : Bool := x.mantissa == 0

/-- A number above or below the largest double. -/
def isInfinite (x : Double) : Bool := decide (x.exponent > highestExponent)

/-- `num / den` divided by `2 ^ e`, as a ratio. -/
def scaled (num den : Nat) (e : Int) : Nat × Nat :=
  if e ≤ 0 then (num <<< (-e).toNat, den) else (num, den <<< e.toNat)

/-- The quotient rounded to the nearest natural number, a tie to the even one. -/
def divNearest (num den : Nat) : Nat :=
  let q := num / den
  let r := num % den
  if 2 * r > den || (2 * r == den && q % 2 == 1) then q + 1 else q

/-- The exponent at which `num / den` has a mantissa of 53 bits, where it is not too small. -/
def fittingExponent (num den : Nat) : Int :=
  let guess := max ((num.log2 : Int) - den.log2 - 53) lowestExponent
  let (n, d) := scaled num den guess
  if n / d ≥ 1 <<< 53 then guess + 1 else guess

/-- The double nearest to `num / den`. -/
def nearest (negative : Bool) (num den : Nat) : Double :=
  if num = 0 then zero negative
  else
    let e := fittingExponent num den
    let (n, d) := scaled num den e
    let q := divNearest n d
    if q = 1 <<< 53 then ⟨negative, 1 <<< 52, e + 1⟩ else ⟨negative, q, e⟩

def ofNat (n : Nat) : Double := nearest false n 1

def ofInt (n : Int) : Double := nearest (decide (n < 0)) n.natAbs 1

def mul (x y : Double) : Double :=
  let (n, d) := scaled (x.mantissa * y.mantissa) 1 (-(x.exponent + y.exponent))
  nearest (x.negative != y.negative) n d

/-- The quotient by a double that is not zero. -/
def div (x y : Double) : Double :=
  let (n, d) := scaled x.mantissa y.mantissa (y.exponent - x.exponent)
  nearest (x.negative != y.negative) n d

/-- The double nearest to `10 ^ n`. -/
def powerOfTen (n : Nat) : Double := ofNat (Decimal.tenTo n)

/-- The double with these bits, unless they stand for an infinity or for no number. -/
def ofBits? (bits : UInt64) : Option Double :=
  let n := bits.toNat
  let field : Nat := n >>> 52 % 2048
  let fraction : Nat := n % (1 <<< 52)
  if field = 2047 then none
  else if field = 0 then some ⟨n >>> 63 == 1, fraction, lowestExponent⟩
  else some ⟨n >>> 63 == 1, fraction + (1 <<< 52), lowestExponent + ((field - 1 : Nat) : Int)⟩

/-- The number as the machine holds it. -/
def toFloat (x : Double) : Float :=
  let size := (Float.ofNat x.mantissa).scaleB x.exponent
  if x.negative then -size else size

end Double

end Outbox
