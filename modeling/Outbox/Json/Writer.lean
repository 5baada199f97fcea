import Outbox.Bytes.Hex
import Outbox.Decimal.Integer
import Outbox.Decimal.Layout
import Outbox.Json.Value
/-! Writing JSON: no blanks, objects in the order of their members, and in strings only those characters
escaped that must be. -/

namespace Outbox.Json

/-- Doubles are written without an exponent from `1e-5` up to `1e16`, and always as fractions. -/
def doubles : Decimal.Layout := ⟨fun e => decide (-5 ≤ e) && decide (e < 16), true⟩

/-- How a character stands in a string. -/
def escape (c : Char) : List Char :=
  if c = '"' then ['\\', '"']
  else if c = '\\' then ['\\', '\\']
  else if c.toNat ≥ 32 then [c]
  else if c.toNat = 8 then ['\\', 'b']
  else if c.toNat = 12 then ['\\', 'f']
  else if c.toNat = 10 then ['\\', 'n']
  else if c.toNat = 13 then ['\\', 'r']
  else if c.toNat = 9 then ['\\', 't']
  else '\\' :: 'u' :: '0' :: '0' :: Hex.encodeByte c.toNat.toUInt8

def quoted (s : String) : List Char := '"' :: (s.toList.flatMap escape ++ ['"'])

def Numeral.write : Numeral → List Char
  | .integer n => Decimal.integerChars n
  | .double x => doubles.writeDouble x

mutual

def Value.writeChars : Value → List Char
  | .null => ['n', 'u', 'l', 'l']
  | .bool true => ['t', 'r', 'u', 'e']
  | .bool false => ['f', 'a', 'l', 's', 'e']
  | .number n => n.write
  | .string s => quoted s
  | .array items => '[' :: (writeItems items ++ [']'])
  | .object members => '\x7b' :: (writeMembers members ++ ['\x7d'])

/-- Elements with commas between them. -/
def writeItems : List Value → List Char
  | [] => []
  | [v] => v.writeChars
  | v :: w :: rest => v.writeChars ++ ',' :: writeItems (w :: rest)

/-- Members with commas between them. -/
def writeMembers : List (String × Value) → List Char
  | [] => []
  | [(name, v)] => quoted name ++ ':' :: v.writeChars
  | (name, v) :: next :: rest => quoted name ++ ':' :: (v.writeChars ++ ',' :: writeMembers (next :: rest))

end

def Value.write (v : Value) : String := String.ofList v.writeChars

/-! ### ASCII -/

/-- The escape of a UTF-16 unit. -/
def unitEscape (n : Nat) : List Char :=
  '\\' :: 'u' :: (Hex.encodeByte (n / 256).toUInt8 ++ Hex.encodeByte (n % 256).toUInt8)

/-- A character beyond ASCII by its one or two UTF-16 units. -/
def asciiOnly (c : Char) : List Char :=
  let n := c.toNat
  if n < 0x80 then [c]
  else if n < 0x10000 then unitEscape n
  else unitEscape (0xD800 + (n - 0x10000) / 1024) ++ unitEscape (0xDC00 + (n - 0x10000) % 1024)

/-- The same value in ASCII: what else there is stands in strings, where it can be escaped. -/
def Value.writeAscii (v : Value) : String := String.ofList (v.writeChars.flatMap asciiOnly)

end Outbox.Json
