/-! The bits of a snowflake id: 41 for milliseconds since an epoch of the user's choice, 10 for the node
and 12 for a sequence within the millisecond. -/

namespace Outbox.Snowflake

def timestampBits : Nat := 41

def nodeBits : Nat := 10

def sequenceBits : Nat := 12

def lastTimestamp : Nat := (1 <<< timestampBits) - 1

def lastNode : Nat := (1 <<< nodeBits) - 1

def lastSequence : Nat := (1 <<< sequenceBits) - 1

/-- The start of the year 2024, in milliseconds since the Unix epoch. -/
def defaultEpoch : Nat := 1704067200000

/-- What an id is made of. -/
structure Parts where
  /-- Milliseconds since the custom epoch. -/
  timestamp : Nat
  node : Nat
  sequence : Nat
deriving DecidableEq, Repr, Inhabited

/-- The id with these parts. -/
def Parts.id (p : Parts) : Int :=
  ((p.timestamp <<< (nodeBits + sequenceBits) + p.node <<< sequenceBits + p.sequence : Nat) : Int)

/-- The parts of an id. A negative one is read as the natural number with the same 64 bits. -/
def decode (id : Int) : Parts :=
  let bits := (id % 18446744073709551616).toNat
  ⟨bits >>> (nodeBits + sequenceBits), bits >>> sequenceBits % (1 <<< nodeBits), bits % (1 <<< sequenceBits)⟩

/-- Milliseconds since the Unix epoch, if 64 bits hold them. -/
def Parts.unixMillis? (p : Parts) (epoch : Nat) : Option Nat :=
  if epoch + p.timestamp < 1 <<< 64 then some (epoch + p.timestamp) else none

/-- The message of a sum that 64 bits do not hold. -/
def sumOverflow : String := "attempt to add with overflow"

end Outbox.Snowflake
