import Outbox.Json.Lexeme
import Outbox.Json.Number
/-! Reading JSON values. Lists and objects may be nested up to a fixed depth; a value that is skipped may
be nested to any. Both readers share what separates the elements of a list and the members of an object. -/

namespace Outbox.Json

/-! ### Separators -/

/-- The elements after those in `done`, which are in reverse. An element takes at least one byte, so
`fuel` need be no more than the number of bytes. -/
def listRest {α : Type} (element : Bytes → Outcome α) :
    (fuel : Nat) → (done : List α) → Bytes → Outcome (List α)
  | 0, _, bytes => stopHere .eofInList bytes
  | fuel + 1, done, bytes =>
    match skipBlanks bytes with
    | [] => stopAtNext .eofInList []
    | listClose :: rest => .ok (done.reverse, rest)
    | comma :: rest =>
      match skipBlanks rest with
      | [] => stopAtNext .eofInValue []
      | listClose :: after => stopAtNext .trailingComma (listClose :: after)
      | next =>
        match element next with
        | .error stop => .error stop
        | .ok (x, rest) => listRest element fuel (x :: done) rest
    | other => stopAtNext .expectedListCommaOrEnd other

/-- The elements of a list after its opening bracket. -/
def readList {α : Type} (element : Bytes → Outcome α) (bytes : Bytes) : Outcome (List α) :=
  match skipBlanks bytes with
  | [] => stopAtNext .eofInList []
  | listClose :: rest => .ok ([], rest)
  | next =>
    match element next with
    | .error stop => .error stop
    | .ok (x, rest) => listRest element (bytes.length + 1) [x] rest

/-- A name, a colon and what `element` reads after them. -/
def readMember {κ α : Type} (name : Bytes → Outcome κ) (element : κ → Bytes → Outcome α) (bytes : Bytes) :
    Outcome α :=
  match bytes with
  | quote :: rest =>
    match name rest with
    | .error stop => .error stop
    | .ok (k, rest) =>
      match skipBlanks rest with
      | [] => stopAtNext .eofInObject []
      | colon :: rest => element k rest
      | other => stopAtNext .expectedColon other
  | other => stopAtNext .keyMustBeString other

/-- The members after those in `done`, which are in reverse and shown to each next one. -/
def objectRest {α : Type} (member : List α → Bytes → Outcome α) :
    (fuel : Nat) → (done : List α) → Bytes → Outcome (List α)
  | 0, _, bytes => stopHere .eofInObject bytes
  | fuel + 1, done, bytes =>
    match skipBlanks bytes with
    | [] => stopAtNext .eofInObject []
    | objectClose :: rest => .ok (done.reverse, rest)
    | comma :: rest =>
      match skipBlanks rest with
      | [] => stopAtNext .eofInValue []
      | objectClose :: after => stopAtNext .trailingComma (objectClose :: after)
      | next =>
        match member done next with
        | .error stop => .error stop
        | .ok (x, rest) => objectRest member fuel (x :: done) rest
    | other => stopAtNext .expectedObjectCommaOrEnd other

/-- The members of an object after its opening brace. -/
def readObject {α : Type} (member : List α → Bytes → Outcome α) (bytes : Bytes) : Outcome (List α) :=
  match skipBlanks bytes with
  | [] => stopAtNext .eofInObject []
  | objectClose :: rest => .ok ([], rest)
  | next =>
    match member [] next with
    | .error stop => .error stop
    | .ok (x, rest) => objectRest member (bytes.length + 1) [x] rest

/-! ### Values -/

/-- A value that is neither a list nor an object, from its first byte `b` on. -/
def readScalar (b : UInt8) (rest : Bytes) : Outcome Value :=
  if b = quote then
    match readString rest with
    | .error stop => .error stop
    | .ok (s, rest) => .ok (.string s, rest)
  else if b = minus ∨ isDigit b then
    match readNumber (b == minus) (if b = minus then rest else b :: rest) with
    | .error stop => .error stop
    | .ok (n, rest) => .ok (.number n, rest)
  else
    match wordTail b with
    | none => stopAtNext .expectedValue (b :: rest)
    | some (word, value) =>
      match readWord word rest with
      | .error stop => .error stop
      | .ok ((), rest) => .ok (value, rest)

/-- A value in which up to `deep` lists and objects may be open at once. -/
def readValue : (deep : Nat) → Bytes → Outcome Value
  | deep, bytes =>
    match skipBlanks bytes with
    | [] => stopAtNext .eofInValue []
    | listOpen :: rest =>
      match deep with
      | 0 => stopAtNext .tooDeep (listOpen :: rest)
      | deep + 1 =>
        match readList (readValue deep) rest with
        | .error stop => .error stop
        | .ok (items, rest) => .ok (.array items, rest)
    | objectOpen :: rest =>
      match deep with
      | 0 => stopAtNext .tooDeep (objectOpen :: rest)
      | deep + 1 =>
        let member := readMember readString fun name bytes =>
          match readValue deep bytes with
          | .error stop => .error stop
          | .ok (v, rest) => .ok ((name, v), rest)
        match readObject (fun _ => member) rest with
        | .error stop => .error stop
        | .ok (members, rest) => .ok (.object (sortEntries members), rest)
    | b :: rest => readScalar b rest

/-- Lists and objects that may be open at once. -/
def deepest : Nat := 127

/-- The end of a text, after blanks. -/
def readEnd (bytes : Bytes) : Except Stop Unit :=
  match skipBlanks bytes with
  | [] => .ok ()
  | other => stopAtNext .trailingCharacters other

/-- The value that a whole text holds. -/
def parse (text : Bytes) : Except ReadError Value :=
  let outcome : Except Stop Value := do
    let (value, rest) ← readValue deepest text
    readEnd rest
    return value
  outcome.mapError (·.locate text)

/-! ### Values that are skipped -/

def skipScalar (b : UInt8) (rest : Bytes) : Outcome Unit :=
  if b = quote then skipString .plain rest
  else if b = minus ∨ isDigit b then skipNumber (if b = minus then rest else b :: rest)
  else
    match wordTail b with
    | none => stopAtNext .expectedValue (b :: rest)
    | some (word, _) => readWord word rest

/-- A value of which only the end is wanted, nested up to `deep` levels. -/
def skipNested : (deep : Nat) → Bytes → Outcome Unit
  | deep, bytes =>
    match skipBlanks bytes with
    | [] => stopAtNext .eofInValue []
    | listOpen :: rest =>
      match deep with
      | 0 => stopAtNext .tooDeep (listOpen :: rest)
      | deep + 1 =>
        match readList (skipNested deep) rest with
        | .error stop => .error stop
        | .ok (_, rest) => .ok ((), rest)
    | objectOpen :: rest =>
      match deep with
      | 0 => stopAtNext .tooDeep (objectOpen :: rest)
      | deep + 1 =>
        let member := readMember (skipString .plain) fun _ => skipNested deep
        match readObject (fun _ => member) rest with
        | .error stop => .error stop
        | .ok (_, rest) => .ok ((), rest)
    | b :: rest => skipScalar b rest

/-- A value of which only the end is wanted. It cannot be nested deeper than it is long. -/
def skipValue (bytes : Bytes) : Outcome Unit := skipNested (bytes.length + 1) bytes

end Outbox.Json
