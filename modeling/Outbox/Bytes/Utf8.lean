/-! UTF-8: the bytes of a text, and reading bytes as characters and malformed pieces. A malformed piece
is as long as a well-formed character could still have started that way, so that two readers agree on
where it ends. -/

namespace Outbox

/-- A sequence of bytes. -/
abbrev Bytes := List UInt8

namespace Utf8

def encodeChar (c : Char) : Bytes := String.utf8EncodeChar c

def encode (cs : List Char) : Bytes := cs.flatMap encodeChar

def ofString (s : String) : Bytes := s.toByteArray.toList

/-! ### Reading -/

/-- What the bytes at one place hold. -/
inductive Piece
  | char (c : Char)
  /-- So many bytes that start no character. -/
  | malformed (width : Nat)
  /-- The start of a character, cut off by the end. -/
  | cut (width : Nat)
deriving DecidableEq, Repr

def isContinuation (b : UInt8) : Bool := 0x80 ≤ b && b ≤ 0xBF

/-- The second byte that may follow `b` in a character of three bytes. -/
def secondOfThree (b c : UInt8) : Bool :=
  if b = 0xE0 then 0xA0 ≤ c && c ≤ 0xBF
  else if b = 0xED then 0x80 ≤ c && c ≤ 0x9F
  else isContinuation c

/-- The second byte that may follow `b` in a character of four bytes. -/
def secondOfFour (b c : UInt8) : Bool :=
  if b = 0xF0 then 0x90 ≤ c && c ≤ 0xBF
  else if b = 0xF4 then 0x80 ≤ c && c ≤ 0x8F
  else isContinuation c

/-- The low six bits of a continuation byte. -/
def payload (b : UInt8) : Nat := b.toNat % 64

def joinTwo (b c : UInt8) : Char := Char.ofNat (b.toNat % 32 * 64 + payload c)

def joinThree (b c d : UInt8) : Char :=
  Char.ofNat (b.toNat % 16 * 4096 + payload c * 64 + payload d)

def joinFour (b c d e : UInt8) : Char :=
  Char.ofNat (b.toNat % 8 * 262144 + payload c * 4096 + payload d * 64 + payload e)

/-- The first piece of `b :: rest`, and what follows it. -/
def next (b : UInt8) (rest : Bytes) : Piece × Bytes :=
  if b < 0x80 then (.char (Char.ofNat b.toNat), rest)
  else if 0xC2 ≤ b && b ≤ 0xDF then
    match rest with
    | [] => (.cut 1, [])
    | c :: rest₁ => if isContinuation c then (.char (joinTwo b c), rest₁) else (.malformed 1, rest)
  else if 0xE0 ≤ b && b ≤ 0xEF then
    match rest with
    | [] => (.cut 1, [])
    | c :: rest₁ =>
      if secondOfThree b c then
        match rest₁ with
        | [] => (.cut 2, [])
        | d :: rest₂ =>
          if isContinuation d then (.char (joinThree b c d), rest₂) else (.malformed 2, rest₁)
      else (.malformed 1, rest)
  else if 0xF0 ≤ b && b ≤ 0xF4 then
    match rest with
    | [] => (.cut 1, [])
    | c :: rest₁ =>
      if secondOfFour b c then
        match rest₁ with
        | [] => (.cut 2, [])
        | d :: rest₂ =>
          if isContinuation d then
            match rest₂ with
            | [] => (.cut 3, [])
            | e :: rest₃ =>
              if isContinuation e then (.char (joinFour b c d e), rest₃)
              else (.malformed 3, rest₂)
          else (.malformed 2, rest₁)
      else (.malformed 1, rest)
  else (.malformed 1, rest)

theorem next_length_le (b : UInt8) (rest : Bytes) : (next b rest).2.length ≤ rest.length := by
  unfold next
  repeat' split
  all_goals simp_all
  all_goals omega

/-- The pieces of `bytes` after those in `done`, which are in reverse. -/
def piecesAfter (done : List Piece) : Bytes → List Piece
  | [] => done.reverse
  | b :: rest => piecesAfter ((next b rest).1 :: done) (next b rest).2
termination_by bytes => bytes.length
decreasing_by
  have := next_length_le b rest
  simp only [List.length_cons]
  omega

def pieces (bytes : Bytes) : List Piece := piecesAfter [] bytes

/-! ### Strict reading -/

/-- Why bytes are not UTF-8: the piece at fault and where it starts. -/
structure Fault where
  start : Nat
  piece : Piece
deriving DecidableEq, Repr

/-- The text, or the first piece that is no character. `start` counts the bytes before. -/
def collect (done : List Char) (start : Nat) : List Piece → Except Fault (List Char)
  | [] => .ok done.reverse
  | .char c :: rest => collect (c :: done) (start + c.utf8Size) rest
  | piece :: _ => .error ⟨start, piece⟩

def decode (bytes : Bytes) : Except Fault String := (collect [] 0 (pieces bytes)).map String.ofList

def Fault.message (f : Fault) : String :=
  match f.piece with
  | .malformed width =>
    "invalid utf-8 sequence of " ++ Nat.repr width ++ " bytes from index " ++ Nat.repr f.start
  | _ => "incomplete utf-8 byte sequence from index " ++ Nat.repr f.start

/-! ### Lenient reading -/

/-- The character that stands for a malformed piece. -/
def replacement : Char := Char.ofNat 0xFFFD

def Piece.shown : Piece → Char
  | .char c => c
  | _ => replacement

/-- The text, with one replacement character for each malformed piece. -/
def decodeLossy (bytes : Bytes) : String := String.ofList ((pieces bytes).map Piece.shown)

end Utf8

end Outbox
