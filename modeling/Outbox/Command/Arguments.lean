import Outbox.Command.Settings
import Outbox.Decimal.Reading
/-! Settings read from the arguments of the command line, from the left, and for those that are not given
from the environment. An option's value is its own text after `=`, or else the next argument; it is looked at
when the next option comes up. -/

namespace Outbox

open Decimal (ReadFault readWord readUpTo)

/-- The settings after one of them is given a text. -/
def Setting.assign (setting : Setting) (text : String) (s : Settings) : Except ReadFault Settings :=
  let word := readWord text
  let half := (readUpTo 4294967295 text).map Nat.toUInt32
  let quarter := (readUpTo 65535 text).map Nat.toUInt16
  match setting with
  | databaseUrl => .ok { s with databaseUrl := some text }
  | brokers => .ok { s with brokers := text }
  | topicLead => .ok { s with topicLead := text }
  | deadLetterTopic => .ok { s with deadLetterTopic := text }
  | batchSize => word.map fun n => { s with batchSize := n }
  | pause => word.map fun n => { s with pause := n }
  | chunk => word.map fun n => { s with chunk := n }
  | timeout => word.map fun n => { s with timeout := n }
  | baseBackoff => word.map fun n => { s with baseBackoff := n }
  | maxBackoff => word.map fun n => { s with maxBackoff := n }
  | maxAttempts => half.map fun n => { s with maxAttempts := n }
  | stuck => word.map fun n => { s with stuck := n }
  | instanceIndex => half.map fun n => { s with instanceIndex := n }
  | instanceCount => half.map fun n => { s with instanceCount := n }
  | node => quarter.map fun n => { s with node := n }
  | epoch => word.map fun n => { s with epoch := n }
  | clockTolerance => word.map fun n => { s with clockTolerance := n }
  | metricsPort => quarter.map fun n => { s with metricsPort := n }
  | inMemory => .ok { s with inMemory := true }
  | demoEvents => half.map fun n => { s with demoEvents := n }

namespace Arguments

/-- Why there are no settings. -/
inductive Stop
  | help
  | version
  /-- An argument that is no option, or an option that there is not. -/
  | unknown (argument : String)
  | missingValue (setting : Setting)
  | badValue (setting : Setting) (text : String) (fault : ReadFault)
  | repeated (setting : Setting)
  /-- A value for an option, as it is shown, that takes none. -/
  | needlessValue (usage text : String)
deriving DecidableEq, Repr, Inhabited

/-- Whether it is a fault rather than a question. -/
def Stop.isFault : Stop → Bool
  | help | version => false
  | _ => true

/-- How far the arguments have been read. -/
structure Progress where
  settings : Settings := {}
  given : List Setting := []
  /-- The option that comes last, and its value if that is there. -/
  last : Option (Setting × Option String) := none
deriving DecidableEq, Repr, Inhabited

namespace Progress

def give (p : Progress) (setting : Setting) (text : String) : Except Stop Progress := do
  if p.given.contains setting then throw (.repeated setting)
  let settings ← (setting.assign text p.settings).mapError (.badValue setting text)
  return { p with settings := settings, given := setting :: p.given }

/-- Takes over the option that comes last. -/
def settle (p : Progress) : Except Stop Progress :=
  match p.last with
  | none => .ok p
  | some (setting, none) => .error (.missingValue setting)
  | some (setting, some text) => { p with last := none }.give setting text

/-- An option by its name, with the text after `=` if there is one. -/
def readOption (p : Progress) (name : String) (value : Option String) : Except Stop Progress := do
  let usage (s : String) : Except Stop Unit := match value with
    | some text => throw (.needlessValue s text)
    | none => pure ()
  match Setting.ofName? name, name with
  | some setting, _ =>
    if setting.takesValue then
      match value with
      | some text => (← p.settle).give setting text
      | none => return { ← p.settle with last := some (setting, none) }
    else do
      usage setting.usage
      (← p.settle).give setting ""
  | none, "help" => do
    usage "--help"
    let _ ← p.settle
    throw .help
  | none, "version" => do
    usage "--version"
    let _ ← p.settle
    throw .version
  | none, _ => throw (.unknown ("--" ++ name))

/-- An option of one hyphen by its first letter. -/
def readLetter (p : Progress) : Char → Except Stop Progress
  | 'h' => do
    let _ ← p.settle
    throw .help
  | 'V' => do
    let _ ← p.settle
    throw .version
  | c => throw (.unknown (String.ofList ['-', c]))

/-- The text before the first `=`, and the text after it. -/
def splitValue (word : List Char) : String × Option String :=
  (String.ofList (word.takeWhile (· != '=')),
    match word.dropWhile (· != '=') with
    | [] => none
    | _ :: value => some (String.ofList value))

def readArgument (p : Progress) (argument : String) : Except Stop Progress :=
  match argument.toList with
  | '-' :: '-' :: word =>
    let (name, value) := splitValue word
    p.readOption name value
  | '-' :: c :: _ => p.readLetter c
  | _ =>
    match p.last with
    | some (setting, none) => .ok { p with last := some (setting, some argument) }
    | _ => .error (.unknown argument)

/-- Reads all arguments. After `--` none is an option, and so none is known. -/
def readAll (p : Progress) : List String → Except Stop Progress
  | [] => p.settle
  | "--" :: [] => p.settle
  | "--" :: argument :: _ => .error (.unknown argument)
  | argument :: rest => do (← p.readArgument argument).readAll rest

/-- Takes settings that are not given from the environment. -/
def readVariables (environment : String → Option String) (p : Progress) : List Setting → Except Stop Progress
  | [] => .ok p
  | setting :: rest =>
    match setting.environmentName?.bind environment with
    | some text =>
      if p.given.contains setting then p.readVariables environment rest
      else do (← p.give setting text).readVariables environment rest
    | none => p.readVariables environment rest

end Progress

/-- The settings that arguments and environment say. -/
def read (arguments : List String) (environment : String → Option String) : Except Stop Settings := do
  let given ← ({} : Progress).readAll arguments
  return (← given.readVariables environment Setting.all).settings

end Arguments

end Outbox
