import Outbox.Postgres.Client

/-! What a client says to its server. Each exchange sends one statement over the connection that there is, and what
comes of it is the outcome of the one reply that the server had for it. -/

namespace Outbox.Postgres

variable {s s' : Session} {statement : Statement} {interrupt : Interrupt}

/-- What a reply comes to. -/
def Reply.outcome : Reply → Except DatabaseFault Result
  | .done affected => .ok { affected := affected }
  | .records rows => .ok { affected := rows.length, records := rows }
  | .error text => .error (.server text)
  | .hangUp => .error Session.hungUp

namespace Session

/-- The reply that the server has for a statement. -/
def reply (s : Session) (statement : Statement) : Reply := (s.server.reply statement).1

/-- The session once a statement was sent and answered; the connection is lost if that was no answer. -/
def told (s : Session) (statement : Statement) : Session where
  server := (s.server.reply statement).2
  connected := s.connected && s.reply statement != .hangUp
  sent := statement :: s.sent

theorem exchange_eq (s : Session) (statement : Statement) :
    s.exchange statement = ((s.reply statement).outcome, s.told statement) := by
  rw [exchange, told, reply]
  generalize s.server.reply statement = answer
  obtain ⟨reply, server⟩ := answer
  cases reply with
  | hangUp => simp [Reply.outcome]
  | done affected | records rows | error text => simp [Reply.outcome, bne]

/-! ### Connections -/

/-- How a session comes by a connection: it keeps the one that it has, or it asks for one, and that goes as the server
means the next attempt to go. -/
inductive Opens : Session → Except DatabaseFault Unit → Session → Prop
  | kept {s : Session} (h : s.connected = true) : Opens s (.ok ()) s
  | absent {s : Session} (h : s.connected = false) (habsent : s.server.absent = true) :
    Opens s (.error (.io "No such file or directory (os error 2)")) s
  | welcome {s : Session} (h : s.connected = false) (hpresent : s.server.absent = false)
    (hscript : s.server.welcomes = []) :
    Opens s (.ok ()) { s with connected := true }
  | accepted {s : Session} {rest : List Welcome} (h : s.connected = false) (hpresent : s.server.absent = false)
    (hscript : s.server.welcomes = .accept :: rest) :
    Opens s (.ok ()) { s with connected := true, server := { s.server with welcomes := rest } }
  | refused {s : Session} {text : String} {rest : List Welcome} (h : s.connected = false)
    (hpresent : s.server.absent = false) (hscript : s.server.welcomes = .refuse text :: rest) :
    Opens s (.error (.server text)) { s with server := { s.server with welcomes := rest } }
  | hungUp {s : Session} {rest : List Welcome} (h : s.connected = false) (hpresent : s.server.absent = false)
    (hscript : s.server.welcomes = .hangUp :: rest) :
    Opens s (.error (.io "expected to read 5 bytes, got 0 bytes at EOF"))
      { s with server := { s.server with welcomes := rest } }

theorem opens_connect (s : Session) : s.Opens s.connect.1 s.connect.2 := by
  rw [connect]
  split
  · next h => exact .kept h
  next h =>
  rw [Bool.not_eq_true] at h
  split
  · next habsent => exact .absent h habsent
  next hpresent =>
  rw [Bool.not_eq_true] at hpresent
  split
  · next hscript => exact .welcome h hpresent hscript
  next welcome rest hscript =>
  cases welcome with
  | accept => exact .accepted h hpresent hscript
  | refuse text => exact .refused h hpresent hscript
  | hangUp => exact .hungUp h hpresent hscript

theorem Opens.sent_eq {opened : Except DatabaseFault Unit} (h : s.Opens opened s') : s'.sent = s.sent := by
  cases h <;> rfl

theorem Opens.connected (h : s.Opens (.ok ()) s') : s'.connected := by
  cases h with
  | kept h => exact h
  | welcome | accepted => rfl

theorem execute_of_connect (h : s.connect = (.ok (), s')) (statement : Statement) :
    s.execute statement = ((s'.reply statement).outcome, s'.told statement) := by
  rw [execute, h]
  exact exchange_eq s' statement

theorem execute_of_not_connect {e : DatabaseFault} (h : s.connect = (.error e, s')) (statement : Statement) :
    s.execute statement = (.error e, s') := by
  rw [execute, h]

end Session

namespace Client

variable {c c' : Client} {result : Result}

/-- A statement was sent, or it failed since there was no connection for it. -/
theorem statements_execute (c : Client) (statement : Statement) :
    (c.execute statement).2.statements = c.statements ++ [statement] ∨
      (∃ e, (c.execute statement).1 = fault e) ∧ (c.execute statement).2.statements = c.statements := by
  have hsent := c.session.opens_connect.sent_eq
  cases hconnect : c.session.connect with
  | mk opened s =>
    replace hsent : s.sent = c.session.sent := by rwa [hconnect] at hsent
    cases opened with
    | ok _ =>
      rw [execute, Session.execute_of_connect hconnect]
      exact .inl (by simp [Client.statements, Session.told, hsent])
    | error e =>
      rw [execute, Session.execute_of_not_connect hconnect]
      exact .inr ⟨⟨e, rfl⟩, congrArg List.reverse hsent⟩

theorem statements_execute_ok (h : c.execute statement = (.ok result, c')) :
    c'.statements = c.statements ++ [statement] := by
  have hor := c.statements_execute statement
  rw [h] at hor
  obtain hsent | ⟨⟨e, he⟩, -⟩ := hor
  · exact hsent
  · cases he

theorem statements_execute_error (h : c.execute statement = (.error interrupt, c')) :
    c'.statements = c.statements ∨ c'.statements = c.statements ++ [statement] := by
  have hor := c.statements_execute statement
  rw [h] at hor
  exact hor.symm.imp_left And.right

/-- Statements are sent in turn, and all succeed. -/
inductive Sends : Client → List Statement → Client → Prop
  | nil (c : Client) : Sends c [] c
  | cons {c c' c'' : Client} {statement : Statement} {result : Result} {rest : List Statement}
    (h : c.execute statement = (.ok result, c')) (hrest : Sends c' rest c'') : Sends c (statement :: rest) c''

theorem Sends.statements_eq {sent : List Statement} (h : c.Sends sent c') : c'.statements = c.statements ++ sent := by
  induction h with
  | nil c => exact (List.append_nil _).symm
  | cons h _ ih => rw [ih, statements_execute_ok h, List.append_assoc, List.singleton_append]

end Client

end Outbox.Postgres
