import Outbox.Event.Row
/-! Values that are bound to a statement. Points in time are microseconds on the server's count, which starts
with the year 2000. -/

namespace Outbox.Postgres

/-- Microseconds from the Unix epoch to the start of the server's count. -/
def serverEpoch : Int := 946684800000000

/-- A point in time on the server's count. What is finer than a microsecond is cut off toward its start. -/
def serverTime (i : Instant) : Int := Int.tdiv (i.nanos - serverEpoch * 1000) 1000

/-- The point in time of the server's count, if it is a date. -/
def ofServerTime? (n : Int) : Option Instant := Instant.ofMicros? (n + serverEpoch)

inductive Parameter
  | integer (n : Int)
  | integers (ns : List Int)
  | text (s : String)
  | bytes (b : Bytes)
  | time (n : Int)
  | json (v : Json.Value)
  | token (t : Token)
deriving Repr, Inhabited

def Parameter.ofInstant (i : Instant) : Parameter := .time (serverTime i)

end Outbox.Postgres
