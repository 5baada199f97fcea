/-! The text of an error as it is kept with a row: its longest prefix of whole characters that is short
enough. -/

namespace Outbox.Cause

/-- The most bytes that are kept. -/
def maxBytes : Nat := 2000

/-- The longest prefix of at most `room` bytes. -/
def takeBytes : (room : Nat) → List Char → List Char
  | _, [] => []
  | room, c :: cs => if c.utf8Size ≤ room then c :: takeBytes (room - c.utf8Size) cs else []

def truncate (cause : String) : String := String.ofList (takeBytes maxBytes cause.toList)

end Outbox.Cause
