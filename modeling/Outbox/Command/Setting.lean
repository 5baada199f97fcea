/-! What can be set for the service, and how it is called on the command line and in the environment. -/

namespace Outbox

/-- One of the settings of the service. -/
inductive Setting
  | databaseUrl
  | brokers
  | topicLead
  | deadLetterTopic
  | batchSize
  | pause
  | chunk
  | timeout
  | baseBackoff
  | maxBackoff
  | maxAttempts
  | stuck
  | instanceIndex
  | instanceCount
  | node
  | epoch
  | clockTolerance
  | metricsPort
  | inMemory
  | demoEvents
deriving DecidableEq, Repr, Inhabited

namespace Setting

def all : List Setting := [databaseUrl, brokers, topicLead, deadLetterTopic, batchSize, pause, chunk, timeout,
  baseBackoff, maxBackoff, maxAttempts, stuck, instanceIndex, instanceCount, node, epoch, clockTolerance,
  metricsPort, inMemory, demoEvents]

/-- The name of the option, after its two hyphens. -/
def name : Setting → String
  | databaseUrl => "database-url"
  | brokers => "brokers"
  | topicLead => "topic-prefix"
  | deadLetterTopic => "dlq-topic"
  | batchSize => "batch-size"
  | pause => "fixed-delay-ms"
  | chunk => "thread-pool-size"
  | timeout => "timeout-seconds"
  | baseBackoff => "base-backoff-ms"
  | maxBackoff => "max-backoff-ms"
  | maxAttempts => "max-attempts"
  | stuck => "stuck-threshold-seconds"
  | instanceIndex => "instance-id"
  | instanceCount => "total-instances"
  | node => "node-id"
  | epoch => "custom-epoch-ms"
  | clockTolerance => "max-clock-backward-ms"
  | metricsPort => "metrics-port"
  | inMemory => "in-memory"
  | demoEvents => "demo-events"

def ofName? (s : String) : Option Setting := all.find? fun setting => setting.name == s

/-- The name with underscores. -/
def key (s : Setting) : String := s.name.map fun c => if c = '-' then '_' else c

def option (s : Setting) : String := "--" ++ s.name

/-- Whether the option has a value. -/
def takesValue : Setting → Bool
  | inMemory => false
  | _ => true

/-- The name in capitals, with underscores. -/
def capitals (s : Setting) : String := s.key.map Char.toUpper

/-- The option as it is shown to the user. -/
def usage (s : Setting) : String := if s.takesValue then s.option ++ " <" ++ s.capitals ++ ">" else s.option

/-- The environment variable that holds the value where no option does. -/
def environmentName? : Setting → Option String
  | databaseUrl => some databaseUrl.capitals
  | inMemory | demoEvents => none
  | s => some ("OUTBOX_" ++ s.capitals)

end Setting

end Outbox
