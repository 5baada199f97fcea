import Outbox.Broker.Code
import Outbox.Decimal.Integer
import Outbox.Time.Span
/-! What the client of a message broker decides by itself: whether its time limit is one, and whether a
message is too large to be sent. -/

namespace Outbox.Broker

/-- A client that sends messages. -/
structure Producer where
  /-- The time limit of a message in milliseconds. -/
  limit : Nat
deriving DecidableEq, Repr, Inhabited

namespace Producer

/-- The longest time limit. -/
def longestLimit : Int := 2147483647

/-- The number that a client takes for `n`: it keeps to 64 bits and then looks at the lower 32 with their
sign. -/
def asTaken (n : Nat) : Int := Int.bmod (min n ((1 <<< 63) - 1)) (1 <<< 32)

def limitFault (n : Nat) : String :=
  "Failed to create producer: Client config error: Configuration property \"message.timeout.ms\" value " ++
    Decimal.integerText (asTaken n) ++ " is outside allowed range 0.." ++
    Decimal.integerText longestLimit ++ "\n message.timeout.ms " ++ Nat.repr n

def make (limit : Span) : Except Refusal Producer :=
  let taken := asTaken limit.millis
  if 0 ≤ taken ∧ taken ≤ longestLimit then .ok ⟨taken.toNat⟩
  else .error (.unavailable (limitFault limit.millis))

/-- The most bytes of a message with all that goes with it. -/
def mostBytes : Nat := 1000000

/-- The most bytes that go with a message besides its key and its payload. -/
def overhead : Nat := 36

/-- Whether a message of a key and a payload of so many bytes is refused at once. -/
def isTooLarge (keyBytes payloadBytes : Nat) : Bool := decide (overhead + keyBytes + payloadBytes > mostBytes)

def sizeFault : ClientError := .coded .production .messageSizeTooLarge

def timeFault : ClientError := .coded .production .messageTimedOut

/-- Sends a message of a key and a payload of so many bytes while no broker can be reached. -/
def sendAlone (_ : Producer) (topic : String) (keyBytes payloadBytes : Nat) : Refusal :=
  (if isTooLarge keyBytes payloadBytes then sizeFault else timeFault).refusal topic

end Producer

end Outbox.Broker
