import Outbox.Decimal.Double
/-! The shortest decimal that reads back as a given double, and of the shortest the nearest. The reals
that round to a double form an interval; a decimal of `n` digits lies in it if and only if one of the
two `n`-digit neighbours of the double does, so the first `n` at which a neighbour lies inside gives
the fewest digits. -/

namespace Outbox

/-- The decimal `digits * 10 ^ exponent`. -/
structure Decimal where
  digits : Nat
  exponent : Int
deriving DecidableEq, Repr, Inhabited

namespace Decimal

/-- The reals that round to a double, in quarters of the gap above it. -/
structure Interval where
  low : Nat
  value : Nat
  high : Nat
  /-- Whether the two ends round to the double too. -/
  closed : Bool
deriving DecidableEq, Repr

/-- Below a power of two the gap is half as wide. -/
def Interval.of (x : Double) : Interval :=
  let m := x.mantissa
  let narrow := m == 1 <<< 52 && decide (x.exponent > Double.lowestExponent)
  ⟨if narrow then 4 * m - 1 else 4 * m - 2, 4 * m, 4 * m + 2, m % 2 == 0⟩

/-- A grid of decimals with spacing `10 ^ exponent`, on which `n` quarters of the gap lie at the
point `n * scale / unit`. -/
structure Grid where
  exponent : Int
  scale : Nat
  unit : Nat
deriving DecidableEq, Repr

def Grid.of (x : Double) (exponent : Int) : Grid :=
  let twos := x.exponent - 2
  let up := tenTo (-exponent).toNat <<< twos.toNat
  let down := tenTo exponent.toNat <<< (-twos).toNat
  ⟨exponent, up, down⟩

def Interval.holds (i : Interval) (g : Grid) (point : Nat) : Bool :=
  let spot := point * g.unit
  if i.closed then decide (i.low * g.scale ≤ spot) && decide (spot ≤ i.high * g.scale)
  else decide (i.low * g.scale < spot) && decide (spot < i.high * g.scale)

/-- The neighbour inside the interval that is nearer to the value; the even one of two that are
equally near. -/
def Interval.neighbour? (i : Interval) (g : Grid) : Option Nat :=
  let below := i.value * g.scale / g.unit
  let above := below + 1
  match i.holds g below, i.holds g above with
  | false, false => none
  | true, false => some below
  | false, true => some above
  | true, true =>
    let toBelow := i.value * g.scale - below * g.unit
    let toAbove := above * g.unit - i.value * g.scale
    if toBelow < toAbove then some below
    else if toAbove < toBelow then some above
    else if below % 2 = 0 then some below else some above

/-- Whether the double is at least `10 ^ k`. -/
def atLeastPower (x : Double) (k : Int) : Bool :=
  decide (tenTo k.toNat <<< (-x.exponent).toNat ≤ (x.mantissa * tenTo (-k).toNat) <<< x.exponent.toNat)

/-- The largest `k` with `10 ^ k` at most the double. -/
def magnitude (x : Double) : Int :=
  let guess := ((x.mantissa.log2 : Int) + x.exponent) * 30103 / 100000
  if atLeastPower x (guess + 1) then guess + 1
  else if atLeastPower x guess then guess else guess - 1

/-- The shortest decimal among those with at least `17 - more` digits. -/
def search (x : Double) : Nat → Decimal
  | 0 => ⟨0, 0⟩
  | more + 1 =>
    let g := Grid.of x (magnitude x + 1 - (17 - more : Nat))
    match (Interval.of x).neighbour? g with
    | some d => ⟨d, g.exponent⟩
    | none => search x more

/-- Moves zeros at the end of the digits into the exponent. -/
def trim (fuel : Nat) (d : Decimal) : Decimal :=
  match fuel with
  | 0 => d
  | fuel + 1 => if d.digits ≠ 0 ∧ d.digits % 10 = 0 then trim fuel ⟨d.digits / 10, d.exponent + 1⟩ else d

/-- The shortest decimal that reads back as the double, without its sign. -/
def shortest (x : Double) : Decimal :=
  if x.isZero then ⟨0, 0⟩ else trim 18 (search x 17)

end Decimal

end Outbox
