import Outbox.Snowflake.Layout
/-! Issuing snowflake ids. Any number of callers share one stamp, the time and sequence of the last id.
A caller takes atomic steps: it loads the stamp, reads the clock, and swaps in the next stamp if the one
it loaded still stands; if not, it starts over. Once the sequence of a millisecond is used up it reads
the clock until that is past. A clock that runs backwards is put up with as far as a tolerance goes. -/

namespace Outbox.Snowflake

structure Config where
  node : Nat := 0
  /-- Milliseconds from the Unix epoch to the time that ids count from. -/
  epoch : Nat := defaultEpoch
  /-- Milliseconds by which the clock may fall back unnoticed. -/
  tolerance : Nat := 5
deriving DecidableEq, Repr, Inhabited

/-- Why no id is issued. -/
inductive Refusal
  | nodeOutOfRange (node : Nat)
  | clockBeforeEpoch (now epoch : Nat)
  | clockWentBack (last now back tolerance : Nat)
  | timestampOverflow (timestamp : Nat)
deriving DecidableEq, Repr, Inhabited

def Refusal.message : Refusal → String
  | nodeOutOfRange node => "Node id " ++ Nat.repr node ++ " exceeds the 10-bit maximum of 1023"
  | clockBeforeEpoch now epoch =>
    "Clock reading " ++ Nat.repr now ++ " is before the custom epoch " ++ Nat.repr epoch
  | clockWentBack last now back tolerance =>
    "Clock moved backwards by " ++ Nat.repr back ++ "ms (last=" ++ Nat.repr last ++ ", now=" ++
      Nat.repr now ++ ", tolerance=" ++ Nat.repr tolerance ++ "ms)"
  | timestampOverflow timestamp =>
    "Timestamp " ++ Nat.repr timestamp ++ "ms past the custom epoch no longer fits in 41 bits"

/-- The time and sequence of the last id, shared by all callers. -/
structure Stamp where
  timestamp : Nat := 0
  sequence : Nat := 0
deriving DecidableEq, Repr, Inhabited

def Stamp.id (s : Stamp) (c : Config) : Int := Parts.id ⟨s.timestamp, c.node, s.sequence⟩

/-- A configuration whose node fits its bits. -/
def Config.check (c : Config) : Except Refusal Config :=
  if c.node > lastNode then .error (.nodeOutOfRange c.node) else .ok c

/-! ### One reading of the clock -/

/-- A reading relative to the epoch. -/
def Config.relative (c : Config) (now : Nat) : Except Refusal Nat :=
  if now < c.epoch then .error (.clockBeforeEpoch now c.epoch) else .ok (now - c.epoch)

/-- The refusal of a relative reading that lies too far before the last timestamp. -/
def Config.regression? (c : Config) (last now : Nat) : Option Refusal :=
  if now < last ∧ last - now > c.tolerance then
    some (.clockWentBack (last + c.epoch) (now + c.epoch) (last - now) c.tolerance)
  else none

/-! ### The steps of a caller -/

/-- Where a caller stands. -/
inductive Stage
  | load
  /-- The stamp is loaded and the clock is to be read. -/
  | read (seen : Stamp)
  /-- The millisecond of the stamp is used up; the clock is to be read until it is past. -/
  | wait (seen : Stamp)
  | swap (seen next : Stamp)
  | answered (answer : Except Refusal Int)
deriving Inhabited

def Stage.readsClock : Stage → Bool
  | .read _ | .wait _ => true
  | _ => false

/-- The swap to a stamp whose timestamp fits its bits. -/
def Stage.toward (seen next : Stamp) : Stage :=
  if next.timestamp > lastTimestamp then .answered (.error (.timestampOverflow next.timestamp))
  else .swap seen next

/-- The step after a first reading. -/
def Config.afterReading (c : Config) (seen : Stamp) (now : Nat) : Stage :=
  match c.relative now with
  | .error e => .answered (.error e)
  | .ok now =>
    match c.regression? seen.timestamp now with
    | some e => .answered (.error e)
    | none =>
      if now > seen.timestamp then .toward seen ⟨now, 0⟩
      else if seen.sequence = lastSequence then .wait seen
      else .toward seen ⟨seen.timestamp, seen.sequence + 1⟩

/-- The step after a reading while the millisecond is used up. -/
def Config.afterWaiting (c : Config) (seen : Stamp) (now : Nat) : Stage :=
  match c.relative now with
  | .error e => .answered (.error e)
  | .ok now =>
    match c.regression? seen.timestamp now with
    | some e => .answered (.error e)
    | none => if now > seen.timestamp then .toward seen ⟨now, 0⟩ else .wait seen

/-- One atomic step of a caller: the shared stamp and where the caller stands after it. `reading` is
used by the steps that read the clock. -/
def Config.step (c : Config) (shared : Stamp) (reading : Nat) : Stage → Stamp × Stage
  | .load => (shared, .read shared)
  | .read seen => (shared, c.afterReading seen reading)
  | .wait seen => (shared, c.afterWaiting seen reading)
  | .swap seen next => if shared = seen then (next, .answered (.ok (next.id c))) else (shared, .load)
  | .answered answer => (shared, .answered answer)

/-! ### A caller on its own -/

/-- A source of clock readings with a state of type `σ`. -/
abbrev Readings (σ : Type) := σ → Nat × σ

/-- The steps of one caller until it has its answer; none if `fuel` steps are too few. -/
def Config.finish {σ : Type} (c : Config) (readings : Readings σ) :
    (fuel : Nat) → Stamp → σ → Stage → Option (Except Refusal Int × Stamp × σ)
  | _, shared, source, .answered answer => some (answer, shared, source)
  | 0, _, _, _ => none
  | fuel + 1, shared, source, stage =>
    let (reading, source) := if stage.readsClock then readings source else (0, source)
    let (shared, stage) := c.step shared reading stage
    c.finish readings fuel shared source stage

/-- The next id, without other callers. -/
def Config.next {σ : Type} (c : Config) (readings : Readings σ) (fuel : Nat) (shared : Stamp) (source : σ) :
    Option (Except Refusal Int × Stamp × σ) :=
  c.finish readings fuel shared source .load

end Outbox.Snowflake
