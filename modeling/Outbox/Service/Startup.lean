import Outbox.Broker.Producer
import Outbox.Command.Arguments
import Outbox.Service.Database
import Outbox.Service.Demo
import Outbox.Simulation.World
/-! The service from its start to its end: it reads its settings, opens its store, writes the events of a
demonstration if it is asked to, and then runs its relay until it is interrupted. -/

namespace Outbox.Service

open Postgres (Client Session Statement)
open Relay (Program)
open Simulation (World Backend)

/-- How the program ends. -/
structure Exit where
  code : Nat
  output : String := ""
  errors : String := ""
deriving DecidableEq, Repr, Inhabited

namespace Exit

def ofBreakdown (b : Breakdown) : Exit :=
  match b with
  | .problem _ _ => { code := 1, errors := b.report }
  | .crash _ => { code := 101, errors := b.report }

/-- The end after an interrupt. -/
def interrupted : Exit := { code := 0 }

end Exit

/-! ### Settings -/

def versionText : String := "outbox_relay 0.1.0\n"

def helpText : String :=
  "Transactional outbox relay\n\nUsage: outbox_relay [OPTIONS]\n\nOptions:\n" ++
    String.join (Setting.all.map fun s => "      " ++ s.usage ++ "\n") ++ "  -h, --help\n  -V, --version\n"

def stopText : Arguments.Stop → String
  | .help => helpText
  | .version => versionText
  | .unknown argument => "error: unexpected argument '" ++ argument ++ "' found\n"
  | .missingValue setting => "error: a value is required for '" ++ setting.usage ++ "' but none was supplied\n"
  | .badValue setting text fault =>
    "error: invalid value '" ++ text ++ "' for '" ++ setting.usage ++ "': " ++ fault.message ++ "\n"
  | .repeated setting => "error: the argument '" ++ setting.usage ++ "' cannot be used multiple times\n"
  | .needlessValue usage text =>
    "error: unexpected value '" ++ text ++ "' for '" ++ usage ++ "' found; no more were expected\n"

def Exit.ofStop (stop : Arguments.Stop) : Exit :=
  if stop.isFault then { code := 2, errors := stopText stop } else { code := 0, output := stopText stop }

def Exit.ofSettingsFault (fault : Settings.Fault) : Exit :=
  .ofBreakdown (.problem fault.message fault.cause?.toList)

/-- The settings, if they can be read and have no fault. -/
def readSettings (arguments : List String) (environment : String → Option String) : Except Exit Settings := do
  let s ← (Arguments.read arguments environment).mapError Exit.ofStop
  s.check.mapError Exit.ofSettingsFault
  return s

/-! ### Startup -/

/-- What is done once the store is open; the relay that is to run. -/
def prepare (s : Settings) (aggregateIds : Nat → String) : ExceptT Breakdown Program Relay := do
  if s.demoEvents ≠ 0 then seed s aggregateIds
  match Broker.Producer.make s.deliveryLimit with
  | .error refusal => throw (.problem refusal.message [])
  | .ok _ =>
    match s.relay with
    | .error fault => throw (.problem ("Invalid partition: " ++ fault.message) [fault.message])
    | .ok relay => return relay

/-- A run that is interrupted after its first tick. -/
def runOnce {σ : Type} (b : Backend σ) (s : Settings) (aggregateIds : Nat → String) (w : World σ) :
    Exit × World σ :=
  match w.complete b (prepare s aggregateIds).run with
  | (.error breakdown, w) => (.ofBreakdown breakdown, w)
  | (.ok relay, w) => (.interrupted, (w.complete b (relay.runTick {})).2)

/-- A database, in which nobody else marks rows. -/
def databaseBackend : Backend Client := ⟨Client.store, fun _ _ c => c⟩

/-- A run from the command line that is interrupted after its first tick: how it ends, and the statements
that it sends. The clock goes on by a millisecond with each event of a demonstration. -/
def run (arguments : List String) (environment : String → Option String) (aggregateIds : Nat → String)
    (now : Instant) (session : Session) : Exit × List Statement :=
  match readSettings arguments environment with
  | .error exit => (exit, [])
  | .ok s =>
    let shifts := List.replicate s.demoEvents.toNat 1000
    if s.inMemory then
      ((runOnce Simulation.tableBackend s aggregateIds
        { start := now, clockShifts := shifts, contents := {} }).1, [])
    else match openDatabase s session with
      | (.error breakdown, c) => (.ofBreakdown breakdown, c.statements)
      | (.ok (), c) =>
        let (exit, w) := runOnce databaseBackend s aggregateIds
          { start := now, clockShifts := shifts, contents := c }
        (exit, w.contents.statements)

end Outbox.Service
