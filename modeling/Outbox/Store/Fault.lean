import Outbox.Json.Fault
/-! Why a store did not do what it was asked for. -/

namespace Outbox

/-- A failure of the database or of the way to it. -/
inductive DatabaseFault
  | poolTimedOut
  | poolClosed
  | rowNotFound
  | workerCrashed
  | io (text : String)
  | protocol (text : String)
  /-- The server's answer was an error. -/
  | server (text : String)
  | configuration (text : String)
  | columnNotFound (column : String)
  /-- The cell of a column, named as it is shown, does not hold what it should. -/
  | undecodable (column text : String)
deriving DecidableEq, Repr, Inhabited

namespace DatabaseFault

def message : DatabaseFault → String
  | poolTimedOut => "pool timed out while waiting for an open connection"
  | poolClosed => "attempted to acquire a connection on a closed pool"
  | rowNotFound => "no rows returned by a query that expected to return at least one row"
  | workerCrashed => "attempted to communicate with a crashed background worker"
  | io text => "error communicating with database: " ++ text
  | protocol text => "encountered unexpected or invalid data: " ++ text
  | server text => "error returned from database: " ++ text
  | configuration text => "error with configuration: " ++ text
  | columnNotFound column => "no column found for name: " ++ column
  | undecodable column text => "error occurred while decoding column " ++ column ++ ": " ++ text

/-- Only a broken connection and a pool that is busy may be better at once. -/
def isTransient : DatabaseFault → Bool
  | io _ | poolTimedOut => true
  | _ => false

/-- The fault's own cause, where it has one. -/
def cause? : DatabaseFault → Option String
  | io text | server text | configuration text | undecodable _ text => some text
  | _ => none

end DatabaseFault

inductive StoreFault
  | database (fault : DatabaseFault)
  | serialization (fault : Json.ReadError)
deriving DecidableEq, Repr, Inhabited

namespace StoreFault

def message : StoreFault → String
  | database fault => "Database error: " ++ fault.message
  | serialization fault => "Serialization error: " ++ fault.message

/-- What led to the fault, the nearest cause first. -/
def causes : StoreFault → List String
  | database fault => fault.message :: fault.cause?.toList
  | serialization fault => [fault.message]

end StoreFault

end Outbox
