import Outbox.Bytes.Utf8
/-! Hexadecimal digits, and bytes written with two of them each. -/

namespace Outbox.Hex

/-- The digit of a number below 16, in lower case. -/
def digit (n : Nat) : Char := Char.ofNat (if n < 10 then 48 + n else 87 + n)

/-- The number that a digit of either case stands for, by its code. -/
def digit? (code : Nat) : Option Nat :=
  if 48 ≤ code ∧ code ≤ 57 then some (code - 48)
  else if 97 ≤ code ∧ code ≤ 102 then some (code - 87)
  else if 65 ≤ code ∧ code ≤ 70 then some (code - 55)
  else none

/-- The number that digits write, the first of them the highest. -/
def number? (digits : Bytes) : Option Nat :=
  digits.foldlM (fun n b => return n * 16 + (← digit? b.toNat)) 0

def encodeByte (b : UInt8) : List Char := [digit (b.toNat / 16), digit (b.toNat % 16)]

def encode (bytes : Bytes) : String := String.ofList (bytes.flatMap encodeByte)

/-- The bytes that digits write two by two. -/
def decode? : Bytes → Option Bytes
  | [] => some []
  | [_] => none
  | a :: b :: rest => return (← number? [a, b]).toUInt8 :: (← decode? rest)

end Outbox.Hex
