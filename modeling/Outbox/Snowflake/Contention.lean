import Outbox.Snowflake.Generator
/-! Clocks that follow a script, and a caller whose readings of such a clock are each preceded by a
complete call of another caller. -/

namespace Outbox.Snowflake

/-- A clock that shows given readings, each so many times in a row, and after them goes on from the last
one by a millisecond at each reading. -/
structure ScriptedClock where
  runs : List (Nat × Nat) := []
  last : Nat := 0
deriving DecidableEq, Repr, Inhabited

namespace ScriptedClock

def read : Readings ScriptedClock
  | ⟨[], last⟩ => (last + 1, ⟨[], last + 1⟩)
  | ⟨(_, 0) :: runs, last⟩ => read ⟨runs, last⟩
  | ⟨(value, count + 1) :: runs, _⟩ => (value, ⟨(value, count) :: runs, value⟩)
termination_by clock => clock.runs.length

def append (clock : ScriptedClock) (runs : List (Nat × Nat)) : ScriptedClock :=
  { clock with runs := clock.runs ++ runs }

/-- The readings that are left in the script. -/
def remaining (clock : ScriptedClock) : Nat := clock.runs.foldr (fun run n => run.2 + n) 0

end ScriptedClock

/-- The steps that a call needs at most. Past the script the clock moves on at every reading, so that
one which is not refused is past the last timestamp after `tolerance` readings. -/
def Config.callLength (c : Config) (clock : ScriptedClock) : Nat := clock.remaining + c.tolerance + 5

/-- A generator, its clock and the answers of callers that came in between, latest first. -/
structure Scene where
  stamp : Stamp := {}
  clock : ScriptedClock := {}
  others : List (Except Refusal Int) := []
deriving Inhabited

/-- A complete call; none only if it took more steps than a call needs. -/
def Scene.call (c : Config) (s : Scene) : Option (Except Refusal Int × Scene) :=
  (c.next ScriptedClock.read (c.callLength s.clock) s.stamp s.clock).map fun (answer, stamp, clock) =>
    (answer, { s with stamp := stamp, clock := clock })

/-- A complete call of another caller. -/
def Scene.callBetween (c : Config) (s : Scene) : Scene :=
  match s.call c with
  | none => s
  | some (answer, s) => { s with others := answer :: s.others }

/-- A call whose next `races` readings are each preceded by another caller's call. Returns the races
that are left over. -/
def Scene.finish (c : Config) : (fuel races : Nat) → Stage → Scene → Option (Except Refusal Int × Nat × Scene)
  | _, races, .answered answer, s => some (answer, races, s)
  | 0, _, _, _ => none
  | fuel + 1, races, stage, s =>
    if stage.readsClock then
      let (races, s) := match races with
        | 0 => (0, s)
        | races + 1 => (races, s.callBetween c)
      let (reading, clock) := s.clock.read
      let (stamp, stage) := c.step s.stamp reading stage
      Scene.finish c fuel races stage { s with stamp := stamp, clock := clock }
    else
      let (stamp, stage) := c.step s.stamp 0 stage
      Scene.finish c fuel races stage { s with stamp := stamp }

/-- Several calls of one caller, up to the first that is refused: the ids, the refusal, and the scene. -/
def Scene.calls (c : Config) (races : Nat) (s : Scene) :
    (count : Nat) → (ids : List Int) → List Int × Option Refusal × Scene
  | 0, ids => (ids.reverse, none, s)
  | count + 1, ids =>
    match Scene.finish c ((races + 1) * c.callLength s.clock) races .load s with
    | none => (ids.reverse, none, s)
    | some (.error e, _, s) => (ids.reverse, some e, s)
    | some (.ok id, races, s) => Scene.calls c races s count (id :: ids)

end Outbox.Snowflake
