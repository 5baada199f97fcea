import Outbox.Postgres.Parameter
/-! Conditions on the rows of a statement: how they are written, and which rows they hold for. -/

namespace Outbox.Postgres

inductive Column
  | id
  | updatedAt
  | nextRetryAt
deriving DecidableEq, Repr, Inhabited

namespace Column

def name : Column → String
  | id => "event_id"
  | updatedAt => "updated_at"
  | nextRetryAt => "next_retry_at"

def value (r : Row) : Column → Parameter
  | id => .integer r.id
  | updatedAt => .ofInstant r.updatedAt
  | nextRetryAt => .ofInstant r.nextRetryAt

end Column

/-! ### Operands -/

inductive Operand
  | column (c : Column)
  /-- A bound parameter; they are numbered from 1. -/
  | parameter (n : Nat)
  | number (n : Nat)
  /-- The remainder of a division that is rounded toward zero. -/
  | remainder (a b : Operand)
deriving DecidableEq, Repr, Inhabited

namespace Operand

def text : Operand → String
  | column c => c.name
  | parameter n => "$" ++ Nat.repr n
  | number n => Nat.repr n
  | remainder a b => "mod(" ++ a.text ++ ", " ++ b.text ++ ")"

def value? (ps : List Parameter) (r : Row) : Operand → Option Parameter
  | column c => some (c.value r)
  | parameter 0 => none
  | parameter (n + 1) => ps[n]?
  | number n => some (.integer n)
  | remainder a b =>
    match a.value? ps r, b.value? ps r with
    | some (.integer x), some (.integer y) => some (.integer (Int.tmod x y))
    | _, _ => none

end Operand

/-! ### Conditions -/

inductive Comparison
  | equal
  | below
  | atMost
  /-- The right side lists the left one. -/
  | listed
deriving DecidableEq, Repr, Inhabited

def Comparison.text (a b : String) : Comparison → String
  | equal => a ++ " = " ++ b
  | below => a ++ " < " ++ b
  | atMost => a ++ " <= " ++ b
  | listed => a ++ " = ANY(" ++ b ++ ")"

def Comparison.holds : Comparison → Parameter → Parameter → Bool
  | equal, .integer a, .integer b => a == b
  | equal, .time a, .time b => a == b
  | below, .integer a, .integer b => decide (a < b)
  | below, .time a, .time b => decide (a < b)
  | atMost, .integer a, .integer b => decide (a ≤ b)
  | atMost, .time a, .time b => decide (a ≤ b)
  | listed, .integer a, .integers bs => bs.contains a
  | _, _, _ => false

inductive Condition
  | statusIn (statuses : List Status)
  | compare (c : Comparison) (a b : Operand)
  | both (a b : Condition)
  | either (a b : Condition)
deriving DecidableEq, Repr, Inhabited

namespace Condition

/-- Whether it is put together from others. -/
def isJoined : Condition → Bool
  | both _ _ | either _ _ => true
  | _ => false

/-- Whether one that it is put together from is joined itself. -/
def isNested : Condition → Bool
  | both a b | either a b => a.isJoined || b.isJoined
  | _ => false

/-- The text of a condition as a part of another. -/
def part (c : Condition) (text : String) : String :=
  if !c.isJoined then text
  else if c.isNested then "( " ++ text ++ " )"
  else "(" ++ text ++ ")"

def statusText (s : Status) : String := "'" ++ s.name ++ "'"

def text : Condition → String
  | statusIn [s] => "status = " ++ statusText s
  | statusIn statuses => "status IN (" ++ ", ".intercalate (statuses.map statusText) ++ ")"
  | compare c a b => c.text a.text b.text
  | both a b => a.part a.text ++ " AND " ++ b.part b.text
  | either a b => a.part a.text ++ " OR " ++ b.part b.text

/-- Whether a row meets the condition under bound parameters. -/
def holds (ps : List Parameter) (r : Row) : Condition → Bool
  | statusIn statuses => statuses.contains r.status
  | compare c a b =>
    match a.value? ps r, b.value? ps r with
    | some x, some y => c.holds x y
    | _, _ => false
  | both a b => a.holds ps r && b.holds ps r
  | either a b => a.holds ps r || b.holds ps r

/-- The row may be claimed: it is due at `$1`, or its owner has been silent since before `$2`; and its id
leaves the remainder `$4` by `$3`. -/
def claimable : Condition :=
  both
    (either
      (both (statusIn [.pending, .failed]) (compare .atMost (.column .nextRetryAt) (.parameter 1)))
      (both (statusIn [.sending]) (compare .below (.column .updatedAt) (.parameter 2))))
    (either
      (compare .equal (.parameter 3) (.number 1))
      (compare .equal (.remainder (.column .id) (.parameter 3)) (.parameter 4)))

/-- The row of the id `$1` while it is being sent. -/
def sendingOne : Condition := both (compare .equal (.column .id) (.parameter 1)) (statusIn [.sending])

/-- The rows with ids in `$1` that are being sent. -/
def sendingMany : Condition := both (compare .listed (.column .id) (.parameter 1)) (statusIn [.sending])

/-- The rows that may still be claimed some time. -/
def isOpen : Condition := statusIn [.pending, .sending, .failed]

end Condition

end Outbox.Postgres
