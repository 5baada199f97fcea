import Outbox.Bytes.Hex
/-! Names of 128 bits that are made up at random. -/

namespace Outbox.Uuid

/-- The bytes of a number, the highest of `count` first. -/
def bytes : (count : Nat) → Nat → Bytes
  | 0, _ => []
  | count + 1, n => (n >>> (8 * count) % 256).toUInt8 :: bytes count n

/-- The digits of a number with those replaced that say how the name was made. -/
def digits (n : Nat) : List Char :=
  ((Hex.encode (bytes 16 n)).toList.set 12 '4').set 16 (Hex.digit (8 + n >>> 62 % 4))

/-- The digits in five groups. -/
def text (n : Nat) : String :=
  let part (start length : Nat) := String.ofList (((digits n).drop start).take length)
  "-".intercalate [part 0 8, part 8 4, part 12 4, part 16 4, part 20 12]

end Outbox.Uuid
