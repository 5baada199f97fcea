import Outbox.Store.Request
/-! Why the service ends by itself, and how that is reported. -/

namespace Outbox.Service

inductive Breakdown
  /-- What it is, and what led to it, the nearest cause first. -/
  | problem (message : String) (causes : List String)
  | crash (text : String)
deriving DecidableEq, Repr, Inhabited

namespace Breakdown

def ofInterrupt : Interrupt → Breakdown
  | .fault fault => problem fault.message fault.causes
  | .crash text => crash text

def message : Breakdown → String
  | problem message _ => message
  | crash text => text

/-! ### Reports -/

/-- Lines behind a first indentation, each further one behind `indent`. -/
def indented (first indent text : String) : String :=
  first ++ ("\n" ++ indent).intercalate (text.splitOn "\n")

/-- A number in at least five places. -/
def numbered (n : Nat) : String :=
  let digits := Nat.repr n
  String.ofList (List.replicate (5 - digits.length) ' ') ++ digits ++ ": "

/-- The lines of causes from a number on. -/
def numberedLines : Nat → List String → List String
  | _, [] => []
  | n, cause :: rest => indented (numbered n) "       " cause :: numberedLines (n + 1) rest

/-- The lines of causes; one alone has no number. -/
def causeLines : List String → List String
  | [cause] => [indented "    " "    " cause]
  | causes => numberedLines 0 causes

def report : Breakdown → String
  | problem message [] => "Error: " ++ message ++ "\n"
  | problem message causes =>
    "Error: " ++ message ++ "\n\nCaused by:\n" ++ "\n".intercalate (causeLines causes) ++ "\n"
  | crash text => "panicked: " ++ text ++ "\n"

end Breakdown

end Outbox.Service
