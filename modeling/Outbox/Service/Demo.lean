import Outbox.Command.Settings
import Outbox.Service.Breakdown
/-! Events for a demonstration, which are written like those of an application. -/

namespace Outbox.Service

open Relay (Program)
open Snowflake (Stage Stamp Refusal)

/-! ### Ids -/

/-- How many steps a caller takes for an id before a clock that stands still is given up. -/
def patience : Nat := 1000000000

/-- The text of the crash on a clock that stands still. -/
def clockStands : String := "the clock stands still"

/-- The steps of a caller that reads the wall clock. -/
def finishId (c : Snowflake.Config) :
    (fuel : Nat) → Stamp → Stage → Program.Interruptible (Except Refusal Int × Stamp)
  | _, shared, .answered answer => return (answer, shared)
  | 0, _, _ => throw (.crash clockStands)
  | fuel + 1, shared, stage => do
    let reading ← if stage.readsClock then Instant.clockMillis <$> Program.now else pure 0
    let (shared, stage) := c.step shared reading stage
    finishId c fuel shared stage

/-! ### Events -/

def demoTypes : List String := ["Order", "Customer", "Payment"]

def demoType (n : Nat) : String := demoTypes.getD (n % demoTypes.length) ""

def demoPayload (n : Nat) : Json.Value := .object [("sequence", .ofInt n), ("source", .string "demo")]

/-- The event of a number, about an aggregate that nobody else knows. -/
def demoEvent (n : Nat) (id : Int) (aggregateId : String) (now : Instant) : Event :=
  let event : Event := {
    id := id, aggregateType := demoType n, aggregateId := aggregateId, kind := demoType n ++ "Created"
    payload := Utf8.ofString (demoPayload n).write, createdAt := now }
  event.withHeader "source" "outbox-relay-demo"

/-- Writes `more` events from number `n` on. `aggregateIds` gives each its aggregate. -/
def seedFrom (c : Snowflake.Config) (aggregateIds : Nat → String) :
    (more n : Nat) → Stamp → ExceptT Breakdown Program Unit
  | 0, _, _ => return ()
  | more + 1, n, stamp => do
    let (answer, stamp) ← (finishId c patience stamp .load).adapt Breakdown.ofInterrupt
    match answer with
    | .error refusal => do
      if let .clockWentBack _ _ _ _ := refusal then Program.note .clockRegression
      throw (.problem refusal.message [])
    | .ok id => do
      Program.note .idGenerated
      let event := demoEvent n id (aggregateIds n) (← Program.now)
      let _ ← (Program.ask (.save event)).adapt Breakdown.ofInterrupt
      seedFrom c aggregateIds more (n + 1) stamp

/-- Writes as many events as the settings say. -/
def seed (s : Settings) (aggregateIds : Nat → String) : ExceptT Breakdown Program Unit := do
  match s.ids.check with
  | .error refusal => throw (.problem refusal.message [])
  | .ok c => seedFrom c aggregateIds s.demoEvents.toNat 0 {}

end Outbox.Service
