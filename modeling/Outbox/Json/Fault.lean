import Outbox.Bytes.Utf8
/-! Why a text is not JSON, and where in the text that shows. -/

namespace Outbox.Json

inductive Fault
  | eofInValue
  | eofInList
  | eofInObject
  | eofInString
  | expectedValue
  | expectedWord
  | expectedColon
  | expectedListCommaOrEnd
  | expectedObjectCommaOrEnd
  | keyMustBeString
  | trailingComma
  | trailingCharacters
  | controlCharacter
  | invalidEscape
  | loneSurrogate
  | unpairedSurrogate
  | invalidUnicode
  | invalidNumber
  | numberOutOfRange
  | tooDeep
  /-- Well-formed, but not what the reader of a record asks for. -/
  | unsuitable
deriving DecidableEq, Repr, Inhabited

/-- Three kinds of fault: a text that ends too early, a value of the wrong kind, and all others. -/
inductive Category
  | eof
  | data
  | grammar
deriving DecidableEq, Repr

namespace Fault

def category : Fault → Category
  | eofInValue | eofInList | eofInObject | eofInString => .eof
  | unsuitable => .data
  | _ => .grammar

def message : Fault → String
  | eofInValue => "EOF while parsing a value"
  | eofInList => "EOF while parsing a list"
  | eofInObject => "EOF while parsing an object"
  | eofInString => "EOF while parsing a string"
  | expectedValue => "expected value"
  | expectedWord => "expected ident"
  | expectedColon => "expected `:`"
  | expectedListCommaOrEnd => "expected `,` or `]`"
  | expectedObjectCommaOrEnd => "expected `,` or `\x7d`"
  | keyMustBeString => "key must be a string"
  | trailingComma => "trailing comma"
  | trailingCharacters => "trailing characters"
  | controlCharacter => "control character (\\u0000-\\u001F) found while parsing a string"
  | invalidEscape => "invalid escape"
  | loneSurrogate => "lone leading surrogate in hex escape"
  | unpairedSurrogate => "unexpected end of hex escape"
  | invalidUnicode => "invalid unicode code point"
  | invalidNumber => "invalid number"
  | numberOutOfRange => "number out of range"
  | tooDeep => "recursion limit exceeded"
  | unsuitable => "unsuitable value"

end Fault

/-- Where reading stopped: a fault, the bytes after the place that it is reported at, and columns by
which that place is moved back. -/
structure Stop where
  fault : Fault
  left : Nat
  back : Nat := 0
deriving DecidableEq, Repr, Inhabited

/-- A fault at a line and a column. -/
structure ReadError where
  fault : Fault
  line : Nat
  column : Nat
deriving DecidableEq, Repr, Inhabited

def ReadError.message (e : ReadError) : String :=
  e.fault.message ++ " at line " ++ Nat.repr e.line ++ " column " ++ Nat.repr e.column

/-- The bytes after the last line break. -/
def lastLine (bytes : Bytes) : Bytes := (bytes.reverse.takeWhile (· != 10)).reverse

/-- Lines count from one, columns are the bytes of the line that come before the place. -/
def Stop.locate (s : Stop) (text : Bytes) : ReadError :=
  let before := text.take (text.length - s.left)
  ⟨s.fault, 1 + before.count 10, (lastLine before).length - s.back⟩

/-! ### Reading with an outcome -/

/-- What is read and the bytes after it, or where reading stopped. -/
abbrev Outcome (α : Type) := Except Stop (α × Bytes)

/-- A fault reported after the bytes that were consumed. -/
def stopHere {α : Type} (fault : Fault) (rest : Bytes) : Except Stop α := .error ⟨fault, rest.length, 0⟩

/-- A fault reported after the next byte, which was looked at only. -/
def stopAtNext {α : Type} (fault : Fault) (rest : Bytes) : Except Stop α :=
  .error ⟨fault, rest.length - 1, 0⟩

end Outbox.Json
