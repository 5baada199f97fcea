import Outbox.Command.Setting
import Outbox.Count
import Outbox.Json.Value
import Outbox.Relay.Tick
import Outbox.Snowflake.Generator
/-! The settings of the service: what they are unless they are given, which of them do not go together, and
what is built from them. -/

namespace Outbox

structure Settings where
  databaseUrl : Option String := none
  brokers : String := "127.0.0.1:9092"
  /-- What is put before the aggregate type in a topic. -/
  topicLead : String := "outbox"
  deadLetterTopic : String := "outbox.dead-letter"
  /-- The most rows that one tick claims. -/
  batchSize : UInt64 := 100
  /-- Milliseconds between the end of a tick and the start of the next. -/
  pause : UInt64 := 1000
  /-- The most messages on their way at once. -/
  chunk : UInt64 := 8
  /-- The time limit of a delivery in seconds. -/
  timeout : UInt64 := 5
  /-- Milliseconds. -/
  baseBackoff : UInt64 := 5000
  /-- Milliseconds. -/
  maxBackoff : UInt64 := 300000
  /-- The attempts before an event is given up; 0 for no end of them. -/
  maxAttempts : UInt32 := 10
  /-- The seconds for which the owner of a row may be silent. -/
  stuck : UInt64 := 600
  instanceIndex : UInt32 := 0
  instanceCount : UInt32 := 1
  node : UInt16 := 0
  /-- Where ids count their milliseconds from. -/
  epoch : UInt64 := 1704067200000
  /-- Milliseconds by which the clock may go back. -/
  clockTolerance : UInt64 := 5
  metricsPort : UInt16 := 9090
  /-- Whether the rows are kept in memory only. -/
  inMemory : Bool := false
  /-- The number of events that are written at the start. -/
  demoEvents : UInt32 := 0
deriving DecidableEq, Repr, Inhabited

namespace Settings

/-! ### What is built from them -/

def partition (s : Settings) : Except Partition.Fault Partition :=
  Partition.make s.instanceIndex.toNat s.instanceCount.toNat

/-- The time limit of a delivery. -/
def deliveryLimit (s : Settings) : Span := .ofSeconds s.timeout.toNat

/-- The seconds that a tick takes at most: each chunk of the batch runs into the time limit, and then each
row does so once more on its way to the dead letters, one after the other. -/
def worstTickSeconds (s : Settings) : Nat :=
  let batch := s.batchSize.toNat
  Count.mul (Count.add (Count.groups batch (max s.chunk.toNat 1)) batch) s.timeout.toNat

def worstTick (s : Settings) : Span := .ofSeconds s.worstTickSeconds

def policy (s : Settings) : Retry.Policy where
  base := .ofMillis s.baseBackoff.toNat
  limit := .ofMillis s.maxBackoff.toNat
  maxAttempts := if s.maxAttempts = 0 then none else some s.maxAttempts.toNat

def ids (s : Settings) : Snowflake.Config where
  node := s.node.toNat
  epoch := s.epoch.toNat
  tolerance := s.clockTolerance.toNat

def relayConfig (s : Settings) : Except Partition.Fault Relay.Config :=
  s.partition.map fun p => {
    partition := p, batchSize := s.batchSize.toNat, stuck := .ofSeconds s.stuck.toNat
    pause := .ofMillis s.pause.toNat }

def publisher (s : Settings) : Relay.Publisher where
  topicLead := s.topicLead
  chunk := s.chunk.toNat
  limit := s.deliveryLimit
  measured := true

def graveyard (s : Settings) : Relay.Graveyard where
  topic := s.deadLetterTopic
  limit := s.deliveryLimit

def relay (s : Settings) : Except Partition.Fault Relay :=
  s.relayConfig.map fun config => {
    config := config, publisher := s.publisher, graveyard := s.graveyard, policy := s.policy }

/-- The most connections to the database, two more than messages on their way. Only 32 bits of that number
are kept; there is no answer if the two more do not fit. -/
def poolSize? (s : Settings) : Option UInt32 :=
  let kept := s.chunk.toNat % (1 <<< 32)
  if kept + 2 < 1 <<< 32 then some (kept + 2).toUInt32 else none

/-- The value of a setting. -/
def value (s : Settings) : Setting → Json.Value
  | .databaseUrl => (s.databaseUrl.map Json.Value.string).getD .null
  | .brokers => .string s.brokers
  | .topicLead => .string s.topicLead
  | .deadLetterTopic => .string s.deadLetterTopic
  | .batchSize => .ofInt s.batchSize.toNat
  | .pause => .ofInt s.pause.toNat
  | .chunk => .ofInt s.chunk.toNat
  | .timeout => .ofInt s.timeout.toNat
  | .baseBackoff => .ofInt s.baseBackoff.toNat
  | .maxBackoff => .ofInt s.maxBackoff.toNat
  | .maxAttempts => .ofInt s.maxAttempts.toNat
  | .stuck => .ofInt s.stuck.toNat
  | .instanceIndex => .ofInt s.instanceIndex.toNat
  | .instanceCount => .ofInt s.instanceCount.toNat
  | .node => .ofInt s.node.toNat
  | .epoch => .ofInt s.epoch.toNat
  | .clockTolerance => .ofInt s.clockTolerance.toNat
  | .metricsPort => .ofInt s.metricsPort.toNat
  | .inMemory => .bool s.inMemory
  | .demoEvents => .ofInt s.demoEvents.toNat

/-- All settings as one object. -/
def toJson (s : Settings) : Json.Value := .object (Setting.all.map fun x => (x.key, s.value x))

/-! ### Faults -/

inductive Fault
  | noDatabase
  | partition (fault : Partition.Fault)
  | zero (setting : Setting)
  | stuckTooSoon (stuck worst : Nat)
  | nodeOutOfRange (node : Nat)
  | backoffRange (base most : Nat)
deriving DecidableEq, Repr, Inhabited

def Fault.message : Fault → String
  | noDatabase => "--database-url (or DATABASE_URL) is required unless --in-memory is set"
  | partition fault => "Invalid partition: " ++ fault.message
  | zero setting => setting.option ++ " must be greater than zero"
  | stuckTooSoon stuck worst =>
    "--stuck-threshold-seconds (" ++ Nat.repr stuck ++ ") must exceed the worst-case tick time of " ++
      Nat.repr worst ++ "s"
  | nodeOutOfRange node => "--node-id " ++ Nat.repr node ++ " exceeds the maximum of 1023"
  | backoffRange base most =>
    "--base-backoff-ms (" ++ Nat.repr base ++ ") must not exceed --max-backoff-ms (" ++ Nat.repr most ++ ")"

/-- The fault's own cause, where it has one. -/
def Fault.cause? : Fault → Option String
  | partition fault => some fault.message
  | _ => none

/-- The first fault that the settings have. -/
def check (s : Settings) : Except Fault Unit := do
  if !s.inMemory && (s.databaseUrl.getD "").isEmpty then throw .noDatabase
  let _ ← s.partition.mapError Fault.partition
  if s.batchSize = 0 then throw (.zero .batchSize)
  if s.chunk = 0 then throw (.zero .chunk)
  if s.timeout = 0 then throw (.zero .timeout)
  if s.stuck = 0 then throw (.zero .stuck)
  if s.stuck.toNat ≤ s.worstTickSeconds then throw (.stuckTooSoon s.stuck.toNat s.worstTickSeconds)
  if s.node.toNat > Snowflake.lastNode then throw (.nodeOutOfRange s.node.toNat)
  if s.baseBackoff > s.maxBackoff then throw (.backoffRange s.baseBackoff.toNat s.maxBackoff.toNat)

end Settings

end Outbox
