import Outbox.Json.Reader
import Outbox.Time.Timestamp
/-! Reading JSON as values of known kinds, up to records. A record is an object with named members in any
order, each exactly once, among others that are skipped; or a list of all its members in order. -/

namespace Outbox.Json

/-- The fault of a value of an unexpected kind. A scalar is read first, so that a fault in it shows. -/
def mismatch {α : Type} (bytes : Bytes) : Except Stop α :=
  match bytes with
  | [] => stopAtNext .eofInValue []
  | b :: rest =>
    if b = listOpen ∨ b = objectOpen then stopHere .unsuitable bytes
    else
      match readScalar b rest with
      | .error stop => .error stop
      | .ok (_, rest) => stopHere .unsuitable rest

/-! ### Kinds of value -/

def readText (bytes : Bytes) : Outcome String :=
  match skipBlanks bytes with
  | quote :: rest => readString rest
  | other => mismatch other

/-- An integer from `low` to `high`. -/
def readBounded (low high : Int) (bytes : Bytes) : Outcome Int :=
  match skipBlanks bytes with
  | [] => stopAtNext .eofInValue []
  | b :: rest =>
    if b = minus ∨ isDigit b then
      match readNumber (b == minus) (if b = minus then rest else b :: rest) with
      | .error stop => .error stop
      | .ok (.integer n, rest) => if low ≤ n ∧ n ≤ high then .ok (n, rest) else stopHere .unsuitable rest
      | .ok (.double _, rest) => stopHere .unsuitable rest
    else mismatch (b :: rest)

def readNull (bytes : Bytes) : Outcome Unit :=
  match skipBlanks bytes with
  | [] => stopAtNext .eofInValue []
  | b :: rest =>
    match wordTail b with
    | some (word, .null) => readWord word rest
    | _ => mismatch (b :: rest)

/-- A time in the form of `Timestamp.read?`. -/
def readMoment (bytes : Bytes) : Outcome Timestamp :=
  match readText bytes with
  | .error stop => .error stop
  | .ok (text, rest) =>
    match Timestamp.read? text with
    | some t => .ok (t, rest)
    | none => stopHere .unsuitable rest

/-- An object of strings; of members with one name the last counts. -/
def readTextMap (bytes : Bytes) : Outcome (List (String × String)) :=
  match skipBlanks bytes with
  | objectOpen :: rest =>
    let member := readMember readString fun name bytes =>
      match readText bytes with
      | .error stop => .error stop
      | .ok (text, rest) => .ok ((name, text), rest)
    match readObject (fun _ => member) rest with
    | .error stop => .error stop
    | .ok (members, rest) => .ok (sortEntries members, rest)
  | other => mismatch other

inductive Kind
  | integer (low high : Int)
  | text
  | moment
  | textMap
  | any
deriving DecidableEq, Repr

/-- A value read as one of the kinds. -/
inductive Item
  | integer (n : Int)
  | text (s : String)
  | moment (t : Timestamp)
  | textMap (entries : List (String × String))
  | any (v : Value)

/-- A value of a kind, inside one open list or object. -/
def Kind.read (kind : Kind) (bytes : Bytes) : Outcome Item :=
  match kind with
  | .integer low high => (readBounded low high bytes).map fun (n, rest) => (.integer n, rest)
  | .text => (readText bytes).map fun (s, rest) => (.text s, rest)
  | .moment => (readMoment bytes).map fun (t, rest) => (.moment t, rest)
  | .textMap => (readTextMap bytes).map fun (m, rest) => (.textMap m, rest)
  | .any => (readValue (deepest - 1) bytes).map fun (v, rest) => (.any v, rest)

/-! ### Records -/

/-- The members of a record. -/
abbrev Fields := List (String × Kind)

/-- The bytes of the next element of a list; none at its end. -/
def nextElement (first : Bool) (bytes : Bytes) : Except Stop (Option Bytes) :=
  match skipBlanks bytes with
  | [] => stopAtNext .eofInList []
  | listClose :: _ => .ok none
  | comma :: rest =>
    if first then .ok (some (comma :: rest))
    else match skipBlanks rest with
      | [] => stopAtNext .eofInValue []
      | listClose :: after => stopAtNext .trailingComma (listClose :: after)
      | next => .ok (some next)
  | other => if first then .ok (some other) else stopAtNext .expectedListCommaOrEnd other

/-- The end of a list all of whose elements are read. -/
def readListEnd (bytes : Bytes) : Outcome Unit :=
  match skipBlanks bytes with
  | [] => stopAtNext .eofInList []
  | listClose :: rest => .ok ((), rest)
  | other => stopAtNext .trailingCharacters other

/-- The members of a record as the elements of a list. -/
def readInOrder (first : Bool) : List Kind → Bytes → Outcome (List Item)
  | [], bytes => (readListEnd bytes).map fun (_, rest) => ([], rest)
  | kind :: kinds, bytes =>
    match nextElement first bytes with
    | .error stop => .error stop
    | .ok none => stopHere .unsuitable bytes
    | .ok (some next) =>
      match kind.read next with
      | .error stop => .error stop
      | .ok (item, rest) =>
        (readInOrder false kinds rest).map fun (items, rest) => (item :: items, rest)

/-- A member of a record, after the members in `done`; none if it is skipped. -/
def readNamed (fields : Fields) (done : List (Option (String × Item))) (bytes : Bytes) :
    Outcome (Option (String × Item)) :=
  match bytes with
  | quote :: text =>
    match readString text with
    | .error stop => .error stop
    | .ok (name, rest) =>
      if done.any fun member => member.any (·.1 == name) then stopHere .unsuitable rest
      else
        let value (_ : String) (bytes : Bytes) : Outcome (Option (String × Item)) :=
          match fields.lookup name with
          | none => (skipValue bytes).map fun (_, rest) => (none, rest)
          | some kind => (kind.read bytes).map fun (item, rest) => (some (name, item), rest)
        readMember readString value bytes
  | other => stopAtNext .keyMustBeString other

/-- The items of all fields; none if one is missing. -/
def collectItems (fields : Fields) (members : List (Option (String × Item))) : Option (List Item) :=
  fields.mapM fun (name, _) => (members.filterMap id).lookup name

/-- The members of a record in the order of `fields`. -/
def readRecord (fields : Fields) (bytes : Bytes) : Outcome (List Item) :=
  match skipBlanks bytes with
  | listOpen :: rest => readInOrder true (fields.map (·.2)) rest
  | objectOpen :: rest =>
    match readObject (readNamed fields) rest with
    | .error stop => .error stop
    | .ok (members, rest) =>
      match collectItems fields members with
      | some items => .ok (items, rest)
      | none => stopHere .unsuitable rest
  | other => mismatch other

/-- The record that a whole text holds, or the kind of fault that it has. -/
def parseRecord (fields : Fields) (text : Bytes) : Except Category (List Item) :=
  let outcome : Except Stop (List Item) := do
    let (items, rest) ← readRecord fields text
    readEnd rest
    return items
  outcome.mapError (·.fault.category)

/-! ### Enumerations -/

/-- One of the names of `values`: as a string, or as the name of an object's only member, which is null. -/
def readEnumeration {α : Type} (values : List (String × α)) (bytes : Bytes) : Outcome α :=
  let named (name : String) (rest : Bytes) : Outcome α :=
    match values.lookup name with
    | some value => .ok (value, rest)
    | none => stopHere .unsuitable rest
  match skipBlanks bytes with
  | [] => stopAtNext .eofInValue []
  | quote :: rest =>
    match readString rest with
    | .error stop => .error stop
    | .ok (name, rest) => named name rest
  | objectOpen :: rest =>
    match readText rest with
    | .error stop => .error stop
    | .ok (name, rest) =>
      match named name rest with
      | .error stop => .error stop
      | .ok (value, rest) =>
        match skipBlanks rest with
        | [] => stopAtNext .eofInObject []
        | colon :: rest =>
          match readNull rest with
          | .error stop => .error stop
          | .ok ((), rest) =>
            match skipBlanks rest with
            | [] => stopHere .eofInObject []
            | objectClose :: rest => .ok (value, rest)
            | other => stopHere .expectedValue other
        | other => stopAtNext .expectedColon other
  | other => stopAtNext .expectedValue other

/-- The named value that a whole text holds, or the kind of fault that it has. -/
def parseEnumeration {α : Type} (values : List (String × α)) (text : Bytes) : Except Category α :=
  let outcome : Except Stop α := do
    let (value, rest) ← readEnumeration values text
    readEnd rest
    return value
  outcome.mapError (·.fault.category)

end Outbox.Json
