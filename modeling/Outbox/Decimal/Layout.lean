import Outbox.Decimal.Shortest
/-! How a decimal is laid out as text: with its point among the digits, or with an exponent. -/

namespace Outbox.Decimal

/-- The choices of a format. -/
structure Layout where
  /-- The powers of ten of the first digit that are written without an exponent. -/
  positional : Int → Bool
  /-- Whether a whole number keeps a point and a zero. -/
  keepsPoint : Bool

/-- The power of ten of the first digit. -/
def leading (d : Decimal) : Int := d.exponent + (Nat.repr d.digits).length - 1

def zeros (n : Nat) : List Char := List.replicate n '0'

/-- The digits around a point. -/
def writePositional (keepsPoint : Bool) (d : Decimal) : List Char :=
  let digits := (Nat.repr d.digits).toList
  if d.exponent ≥ 0 then
    digits ++ zeros d.exponent.toNat ++ (if keepsPoint then ['.', '0'] else [])
  else
    let places := (-d.exponent).toNat
    if places < digits.length then
      digits.take (digits.length - places) ++ '.' :: digits.drop (digits.length - places)
    else '0' :: '.' :: zeros (places - digits.length) ++ digits

/-- The first digit, a point, the others and the power of ten of the first. -/
def writeScientific (d : Decimal) : List Char :=
  let digits := (Nat.repr d.digits).toList
  let e := d.leading
  let head := match digits with
    | [] => []
    | [c] => [c]
    | c :: rest => c :: '.' :: rest
  head ++ 'e' :: (if e < 0 then '-' else '+') :: (Nat.repr e.natAbs).toList

def Layout.write (l : Layout) (d : Decimal) : List Char :=
  if l.positional d.leading then writePositional l.keepsPoint d else writeScientific d

/-- A double in its shortest decimal. -/
def Layout.writeDouble (l : Layout) (x : Double) : List Char :=
  (if x.negative then ['-'] else []) ++ l.write (shortest x)

end Outbox.Decimal
