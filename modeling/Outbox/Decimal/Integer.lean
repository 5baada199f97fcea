/-! Integers in decimal digits, negative ones after a minus sign, and powers of ten. -/

namespace Outbox.Decimal

/-- `10 ^ n`. -/
def tenTo (n : Nat) : Nat := Nat.pow 10 n

def integerChars (n : Int) : List Char := (if n < 0 then ['-'] else []) ++ (Nat.repr n.natAbs).toList

def integerText (n : Int) : String := String.ofList (integerChars n)

end Outbox.Decimal
