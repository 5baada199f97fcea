import Outbox.Json.Record
import Outbox.Json.Writer
/-! The five states of a stored event and their names: one in the table, another in JSON. -/

namespace Outbox

inductive Status
  | pending
  | sending
  | published
  | failed
  | deadLettered
deriving DecidableEq, Repr, Inhabited

namespace Status

def all : List Status := [pending, sending, published, failed, deadLettered]

/-- The name in the table. -/
def name : Status → String
  | pending => "PENDING"
  | sending => "SENDING"
  | published => "PUBLISHED"
  | failed => "FAILED"
  | deadLettered => "DEAD_LETTER"

def ofName? (s : String) : Option Status := all.find? fun status => status.name == s

/-- The message about a name that no status has. -/
def unknownMessage (s : String) : String := "Unknown outbox status: " ++ s

/-- Whether an event in this state is never sent again. -/
def isTerminal : Status → Bool
  | published | deadLettered => true
  | _ => false

/-- The place in the list of all states. -/
def index (s : Status) : Nat := all.idxOf s

/-! ### JSON -/

def variantName : Status → String
  | pending => "Pending"
  | sending => "Sending"
  | published => "Published"
  | failed => "Failed"
  | deadLettered => "DeadLettered"

def toJson (s : Status) : Json.Value := .string s.variantName

def parseJson (text : Bytes) : Except Json.Category Status :=
  Json.parseEnumeration (all.map fun s => (s.variantName, s)) text

end Status

end Outbox
