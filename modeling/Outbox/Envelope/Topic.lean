/-! The topic that the events of an aggregate type go to. -/

namespace Outbox.Topic

inductive Fault
  | emptyType
  | tooLong
  | badCharacter
deriving DecidableEq, Repr, Inhabited

def Fault.reason : Fault → String
  | emptyType => "empty aggregate type"
  | tooLong => "topic name too long"
  | badCharacter => "topic may only contain [a-zA-Z0-9._-]"

def Fault.message (f : Fault) (aggregateType : String) : String :=
  "Cannot derive topic from aggregate type '" ++ aggregateType ++ "': " ++ f.reason

/-- The most bytes of a topic. -/
def maxBytes : Nat := 249

def isAllowed (c : Char) : Bool := c.isAlphanum || c == '.' || c == '_' || c == '-'

/-- The name: the aggregate type in lower case, after a point if anything is put before it. -/
def name (lead aggregateType : String) : String :=
  let lower := aggregateType.map Char.toLower
  if lead.isEmpty then lower else lead ++ "." ++ lower

def resolve (lead aggregateType : String) : Except Fault String :=
  if aggregateType.isEmpty then .error .emptyType
  else
    let topic := name lead aggregateType
    if topic.utf8ByteSize > maxBytes then .error .tooLong
    else if topic.toList.all isAllowed then .ok topic
    else .error .badCharacter

end Outbox.Topic
