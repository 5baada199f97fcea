import Outbox.Command.Settings
import Outbox.Postgres.Client
import Outbox.Retry.Attempts
import Outbox.Service.Breakdown
/-! Opening the store in the database that the settings name. -/

namespace Outbox.Service

open Postgres (Client Session)

/-! ### The URL -/

def isSchemeChar (c : Char) : Bool := c.isAlphanum || c = '+' || c = '-' || c = '.'

/-- Whether a character is left out wherever it stands. -/
def isSkipped (c : Char) : Bool := c = '\t' || c = '\n' || c = '\r'

/-- Whether a text begins with a scheme: a letter, more letters, digits and `+-.`, and a colon. Blanks and
controls before it do not count. -/
def hasScheme (url : String) : Bool :=
  match (url.toList.filter fun c => !isSkipped c).dropWhile fun c => decide (c.toNat ≤ 32) with
  | [] => false
  | c :: rest => c.isAlpha && (rest.dropWhile isSchemeChar).head? == some ':'

/-! ### Connecting -/

/-- How often a connection is tried. -/
def connectAttempts : Nat := 5

/-- Tries to connect; a URL that is none is found out before. -/
def connectTo (url : String) : Retry.Operation Session DatabaseFault Unit where
  run _ session :=
    if hasScheme url then session.connect else (.error (.configuration "relative URL without a base"), session)
  isTransient := DatabaseFault.isTransient
  wait _ session := session

/-- The text of the crash on a sum that does not fit. -/
def poolOverflow : String := "attempt to add with overflow"

def connectFailure (fault : DatabaseFault) : Breakdown :=
  .problem ("Failed to connect to Postgres: " ++ fault.message) []

/-- Connects to the database and makes the table where there is none. -/
def openDatabase (s : Settings) (session : Session) : Except Breakdown Unit × Client :=
  match s.databaseUrl, s.poolSize? with
  | none, _ => (.error (.problem "DATABASE_URL is not set" []), { session := session })
  | some _, none => (.error (.crash poolOverflow), { session := session })
  | some url, some _ =>
    match Retry.attempts s.policy (connectTo url) connectAttempts session with
    | (.succeeded (), session) =>
      let (result, client) := ({ session := session } : Client).ensureSchema
      (result.mapError Breakdown.ofInterrupt, client)
    | (.gaveUp e, session) | (.refused e, session) => (.error (connectFailure e), { session := session })

end Outbox.Service
