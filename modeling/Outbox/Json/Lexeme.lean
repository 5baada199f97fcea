import Outbox.Bytes.Hex
import Outbox.Json.Fault
import Outbox.Json.Value
/-! The lexemes of JSON that are not numbers: blanks, the words null, true and false, and strings. -/

namespace Outbox.Json

@[match_pattern] def quote : UInt8 := 34

@[match_pattern] def comma : UInt8 := 44

@[match_pattern] def minus : UInt8 := 45

@[match_pattern] def colon : UInt8 := 58

@[match_pattern] def listOpen : UInt8 := 91

@[match_pattern] def backslash : UInt8 := 92

@[match_pattern] def listClose : UInt8 := 93

@[match_pattern] def objectOpen : UInt8 := 123

@[match_pattern] def objectClose : UInt8 := 125

def isBlank (b : UInt8) : Bool := b == 32 || b == 10 || b == 9 || b == 13

def skipBlanks (bytes : Bytes) : Bytes := bytes.dropWhile isBlank

/-- The rest of a word whose first letter is read already. -/
def readWord : Bytes → Bytes → Outcome Unit
  | [], rest => .ok ((), rest)
  | _ :: _, [] => stopHere .eofInValue []
  | w :: word, b :: rest => if b = w then readWord word rest else stopHere .expectedWord rest

/-- The letters after the first of null, true and false, and the value that the word stands for. -/
def wordTail (b : UInt8) : Option (Bytes × Value) :=
  if b = 110 then some ([117, 108, 108], .null)
  else if b = 116 then some ([114, 117, 101], .bool true)
  else if b = 102 then some ([97, 108, 115, 101], .bool false)
  else none

/-! ### Strings -/

/-- Where in a string the next byte stands. -/
inductive StringPlace
  | plain
  /-- After a backslash. -/
  | escape
  /-- After a backslash and `u`, with the hexadecimal digits so far in reverse, and the first half of
  a surrogate pair if one precedes. -/
  | unit (high : Option Nat) (digits : Bytes)
  /-- After the first half of a surrogate pair. -/
  | half (high : Nat)
  /-- After the first half of a surrogate pair and a backslash. -/
  | halfEscape (high : Nat)
deriving DecidableEq, Repr

/-- What one byte of a string does. -/
inductive StringStep
  | close
  /-- Go on at a place, with bytes for the string. -/
  | go (place : StringPlace) (bytes : Bytes)
  | fail (fault : Fault)
deriving DecidableEq, Repr

/-- The bytes of a code point. -/
def codePoint (n : Nat) : Bytes := Utf8.encodeChar (Char.ofNat n)

/-- The character that a letter after a backslash stands for. -/
def escapeLetter? (b : UInt8) : Option UInt8 :=
  if b = 34 then some 34
  else if b = 92 then some 92
  else if b = 47 then some 47
  else if b = 98 then some 8
  else if b = 102 then some 12
  else if b = 110 then some 10
  else if b = 114 then some 13
  else if b = 116 then some 9
  else none

/-- A 16-bit unit at its last digit. -/
def unitStep (high : Option Nat) (n : Nat) : StringStep :=
  match high with
  | some h =>
    if 0xDC00 ≤ n ∧ n ≤ 0xDFFF then
      .go .plain (codePoint (0x10000 + (h - 0xD800) * 1024 + (n - 0xDC00)))
    else .fail .loneSurrogate
  | none =>
    if 0xDC00 ≤ n ∧ n ≤ 0xDFFF then .fail .loneSurrogate
    else if 0xD800 ≤ n ∧ n ≤ 0xDBFF then .go (.half n) []
    else .go .plain (codePoint n)

def StringPlace.step (place : StringPlace) (b : UInt8) : StringStep :=
  match place with
  | .plain =>
    if b = quote then .close
    else if b = backslash then .go .escape []
    else if b < 32 then .fail .controlCharacter
    else .go .plain [b]
  | .escape =>
    if b = 117 then .go (.unit none []) []
    else match escapeLetter? b with
      | some c => .go .plain [c]
      | none => .fail .invalidEscape
  | .unit high digits =>
    if digits.length < 3 then .go (.unit high (b :: digits)) []
    else match Hex.number? (b :: digits).reverse with
      | some n => unitStep high n
      | none => .fail .invalidEscape
  | .half high => if b = backslash then .go (.halfEscape high) [] else .fail .unpairedSurrogate
  | .halfEscape high => if b = 117 then .go (.unit (some high) []) [] else .fail .unpairedSurrogate

/-- The bytes of a string up to its closing quote. `done` holds those so far in reverse. -/
def scanString (place : StringPlace) (done : Bytes) : Bytes → Outcome Bytes
  | [] => stopHere .eofInString []
  | b :: rest =>
    match place.step b with
    | .close => .ok (done.reverse, rest)
    | .go place bytes => scanString place (bytes.reverse ++ done) rest
    | .fail fault => stopHere fault rest

/-- The text of a string after its opening quote. -/
def readString (bytes : Bytes) : Outcome String :=
  match scanString .plain [] bytes with
  | .error stop => .error stop
  | .ok (content, rest) =>
    match Utf8.decode content with
    | .ok s => .ok (s, rest)
    | .error fault => .error ⟨.invalidUnicode, rest.length, content.length - fault.start⟩

/-! ### Strings that are skipped -/

/-- One byte of a string whose text is not needed: surrogates need not pair up. -/
def StringPlace.skipStep (place : StringPlace) (b : UInt8) : StringStep :=
  match place with
  | .unit none digits =>
    if digits.length < 3 then .go (.unit none (b :: digits)) []
    else if (Hex.number? (b :: digits).reverse).isSome then .go .plain [] else .fail .invalidEscape
  | place => place.step b

def skipString (place : StringPlace) : Bytes → Outcome Unit
  | [] => stopHere .eofInString []
  | b :: rest =>
    match place.skipStep b with
    | .close => .ok ((), rest)
    | .go place _ => skipString place rest
    | .fail fault => stopHere fault rest

end Outbox.Json
