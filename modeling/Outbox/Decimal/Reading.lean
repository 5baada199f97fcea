import Outbox.Decimal.Integer
/-! Integers read from text, within limits: an optional sign and ASCII digits. Digits are taken from the left,
and the first fault counts. -/

namespace Outbox.Decimal

inductive ReadFault
  | empty
  | badDigit
  | tooLarge
  | tooSmall
  /-- The number is read, but only those from 0 to `most` will do. -/
  | outside (n : Int) (most : Nat)
deriving DecidableEq, Repr, Inhabited

def ReadFault.message : ReadFault → String
  | empty => "cannot parse integer from empty string"
  | badDigit => "invalid digit found in string"
  | tooLarge => "number too large to fit in target type"
  | tooSmall => "number too small to fit in target type"
  | outside n most => integerText n ++ " is not in 0..=" ++ Nat.repr most

def digit? (c : Char) : Option Nat := if c.isDigit then some (c.toNat - '0'.toNat) else none

/-- Adds digits to `n`, with the sign of the number, while it stays within the limits. -/
def readDigits (low high sign : Int) : Int → List Char → Except ReadFault Int
  | n, [] => .ok n
  | n, c :: rest =>
    match digit? c with
    | none => .error .badDigit
    | some d =>
      let n := n * 10 + sign * d
      if n > high then .error .tooLarge
      else if n < low then .error .tooSmall
      else readDigits low high sign n rest

/-- A minus sign is a sign only where some number is negative; a sign alone is no number. -/
def readInteger (low high : Int) : List Char → Except ReadFault Int
  | [] => .error .empty
  | ['+'] | ['-'] => .error .badDigit
  | '+' :: rest => readDigits low high 1 0 rest
  | '-' :: rest => if low < 0 then readDigits low high (-1) 0 rest else .error .badDigit
  | cs => readDigits low high 1 0 cs

/-- A number of 64 bits. -/
def readWord (s : String) : Except ReadFault UInt64 :=
  (readInteger 0 18446744073709551615 s.toList).map fun n => n.toNat.toUInt64

/-- A number up to `most`, which is read as a signed one of 64 bits. -/
def readUpTo (most : Nat) (s : String) : Except ReadFault Nat := do
  let n ← readInteger (-9223372036854775808) 9223372036854775807 s.toList
  if 0 ≤ n ∧ n ≤ most then return n.toNat else throw (.outside n most)

end Outbox.Decimal
