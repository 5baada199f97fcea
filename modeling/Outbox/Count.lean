/-! Counts that hold at most 64 bits. Sums and products of them stop at the largest value. -/

namespace Outbox.Count

/-- The largest count. -/
def top : Nat := (1 <<< 64) - 1

def clamp (n : Nat) : Nat := min n top

def add (a b : Nat) : Nat := clamp (a + b)

def mul (a b : Nat) : Nat := clamp (a * b)

/-- The number of groups of at most `size` that hold `n` things. -/
def groups (n size : Nat) : Nat := n / size + (if n % size = 0 then 0 else 1)

end Outbox.Count
