/-! Partitions of the events among relays: the ids that are congruent to an index modulo a total. -/

namespace Outbox

/-- The ids congruent to `index` modulo `total`. -/
structure Partition where
  index : Nat
  total : Nat
  index_lt : index < total := by decide
deriving DecidableEq

namespace Partition

inductive Fault
  | noPartitions
  | indexOutOfRange (index total : Nat)
deriving DecidableEq, Repr, Inhabited

def Fault.message : Fault → String
  | noPartitions => "Partition total must be at least 1"
  | indexOutOfRange index total =>
    "Partition index " ++ Nat.repr index ++ " out of range for " ++ Nat.repr total ++ " partitions"

def make (index total : Nat) : Except Fault Partition :=
  if total = 0 then .error .noPartitions
  else if h : index < total then .ok ⟨index, total, h⟩
  else .error (.indexOutOfRange index total)

/-- The partition of all ids. -/
def whole : Partition := { index := 0, total := 1 }

instance : Inhabited Partition := ⟨whole⟩

def isWhole (p : Partition) : Bool := p.total == 1

def owns (p : Partition) (id : Int) : Bool := id % p.total == p.index

/-- The text `index/total`. -/
def describe (p : Partition) : String := Nat.repr p.index ++ "/" ++ Nat.repr p.total

end Partition

end Outbox
