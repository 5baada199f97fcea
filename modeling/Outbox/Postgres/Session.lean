import Outbox.Postgres.Cell
import Outbox.Postgres.Statement
/-! A session with a server that follows a script, over one connection at a time. The connection is made when
it is first needed, and made anew after the server hung up. -/

namespace Outbox.Postgres

/-- What the server does when somebody connects. -/
inductive Welcome
  | accept
  | refuse (text : String)
  | hangUp
deriving DecidableEq, Repr, Inhabited

/-- What the server does with a statement. -/
inductive Reply
  | done (affected : Nat)
  | records (rows : List Record)
  | error (text : String)
  | hangUp
deriving DecidableEq, Repr, Inhabited

structure Server where
  /-- Whether there is no server. -/
  absent : Bool := false
  /-- For one connection after the other; all others are accepted. -/
  welcomes : List Welcome := []
  /-- For one statement after the other, those of transactions aside; all others do nothing. -/
  replies : List Reply := []
  /-- For statements of transactions, by what they are; all others succeed. -/
  controls : List (Control × Reply) := []
deriving DecidableEq, Repr, Inhabited

/-- The first entry under a key, and the entries without it. -/
def takeEntry {κ α : Type} [BEq κ] (key : κ) : List (κ × α) → Option α × List (κ × α)
  | [] => (none, [])
  | (k, a) :: rest =>
    if k == key then (some a, rest)
    else
      let (found, rest) := takeEntry key rest
      (found, (k, a) :: rest)

/-- The reply to a statement. -/
def Server.reply (s : Server) : Statement → Reply × Server
  | .control c =>
    let (reply, controls) := takeEntry c s.controls
    (reply.getD (.done 0), { s with controls := controls })
  | _ =>
    match s.replies with
    | [] => (.done 0, s)
    | reply :: rest => (reply, { s with replies := rest })

/-- What a statement came to. -/
structure Result where
  affected : Nat := 0
  records : List Record := []
deriving DecidableEq, Repr, Inhabited

structure Session where
  server : Server
  connected : Bool := false
  /-- The statements sent, latest first. -/
  sent : List Statement := []
deriving Inhabited

namespace Session

/-- What is said of a server that hung up. -/
def hungUp : DatabaseFault := .io "expected to read 5 bytes, got 0 bytes at EOF"

/-- What is said where there is no server. -/
def noServer : DatabaseFault := .io "No such file or directory (os error 2)"

def connect (s : Session) : Except DatabaseFault Unit × Session :=
  if s.connected then (.ok (), s)
  else if s.server.absent then (.error noServer, s)
  else match s.server.welcomes with
    | [] => (.ok (), { s with connected := true })
    | welcome :: rest =>
      let s := { s with server := { s.server with welcomes := rest } }
      match welcome with
      | .accept => (.ok (), { s with connected := true })
      | .refuse text => (.error (.server text), s)
      | .hangUp => (.error hungUp, s)

/-- Sends a statement over the connection. -/
def exchange (s : Session) (statement : Statement) : Except DatabaseFault Result × Session :=
  let (reply, server) := s.server.reply statement
  let s := { s with server := server, sent := statement :: s.sent }
  match reply with
  | .done affected => (.ok { affected := affected }, s)
  | .records rows => (.ok { affected := rows.length, records := rows }, s)
  | .error text => (.error (.server text), s)
  | .hangUp => (.error hungUp, { s with connected := false })

/-- Sends a statement, over a new connection if there is none. -/
def execute (s : Session) (statement : Statement) : Except DatabaseFault Result × Session :=
  match s.connect with
  | (.error e, s) => (.error e, s)
  | (.ok (), s) => s.exchange statement

/-- Leaves a transaction that is still open. A connection on which that fails is given up. -/
def abandon (s : Session) : Session :=
  if !s.connected then s
  else match s.exchange (.control .rollback) with
    | (.ok _, s) => s
    | (.error _, s) => { s with connected := false }

/-- Sends statements in turn until one fails. -/
def exchangeAll (s : Session) : List Statement → Except DatabaseFault (List Result) × Session
  | [] => (.ok [], s)
  | statement :: rest =>
    match s.exchange statement with
    | (.error e, s) => (.error e, s)
    | (.ok result, s) =>
      let (results, s) := s.exchangeAll rest
      (results.map (result :: ·), s)

/-- Sends statements in one transaction and ends it as `last` says. A transaction that was begun and
not ended is left. -/
def transaction (s : Session) (statements : List Statement) (last : Control) :
    Except DatabaseFault (List Result) × Session :=
  match s.execute (.control .start) with
  | (.error e, s) => (.error e, s)
  | (.ok _, s) =>
    match s.exchangeAll statements with
    | (.error e, s) => (.error e, s.abandon)
    | (.ok results, s) =>
      match s.exchange (.control last) with
      | (.error e, s) => (.error e, s.abandon)
      | (.ok _, s) => (.ok results, s)

end Session

end Outbox.Postgres
