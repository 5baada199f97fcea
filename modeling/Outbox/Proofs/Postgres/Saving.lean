import Outbox.Proofs.Postgres.Exchanges
import Outbox.Proofs.Postgres.Wording

/-! Saves in a database. What is said for one save is said over one connection, and it takes one of a few courses: the
transaction is begun, filled and committed, or the first step that fails ends it. The server's account of transactions
is closed before and after each save, and it counts a committed row for each save that succeeds with a new event. -/

namespace Outbox.Postgres

/-! ### Talks -/

/-- A statement with the reply to it. -/
abbrev Entry := Statement × Reply

namespace Session

variable {s s' : Session} {statement : Statement} {entries : List Entry}

/-- What is said over one connection. -/
inductive Talks : Session → List Entry → Session → Prop
  | nil (s : Session) : Talks s [] s
  | cons {s s' : Session} {entries : List Entry} (h : s.connected) (statement : Statement)
    (hrest : Talks (s.told statement) entries s') : Talks s ((statement, s.reply statement) :: entries) s'

theorem Talks.sent_eq (h : s.Talks entries s') : s'.sent.reverse = s.sent.reverse ++ entries.map Prod.fst := by
  induction h with
  | nil s => simp
  | cons h statement _ ih => simpa [told] using ih

/-- The session as a talk left it; the connection is given up if the talk ended with a rollback that failed. -/
inductive Leaves (s : Session) (entries : List Entry) : Session → Prop
  | kept (h : ∀ undone f, entries.getLast? = some (.control .rollback, undone) → undone.outcome ≠ .error f) :
    s.Leaves entries s
  | givenUp {undone : Reply} {f : DatabaseFault} (h : entries.getLast? = some (.control .rollback, undone))
    (hfailed : undone.outcome = .error f) : s.Leaves entries { s with connected := false }

theorem Leaves.sent_eq (h : s.Leaves entries s') : s'.sent = s.sent := by
  cases h <;> rfl

theorem leaves_of_last (before : List Entry) (last : Entry) (h : last.1 ≠ .control .rollback) (s : Session) :
    s.Leaves (before ++ [last]) s := by
  refine .kept fun undone f hlast => ?_
  rw [List.getLast?_concat] at hlast
  exact absurd (congrArg Prod.fst (Option.some.inj hlast)) h

theorem connected_told {result : Result} (h : s.connected) (hreply : (s.reply statement).outcome = .ok result) :
    (s.told statement).connected := by
  cases hr : s.reply statement with
  | hangUp =>
    rw [hr] at hreply
    cases hreply
  | done affected | records rows | error text => simp [told, h, hr]

/-- What is said when a statement has failed: an open transaction is left, if the connection is still there. -/
def parting (failed undone : Reply) : List Entry :=
  if failed = .hangUp then [] else [(.control .rollback, undone)]

theorem talks_abandon (h : s.connected) (statement : Statement) (hstatement : statement ≠ .control .rollback)
    (before : List Entry) :
    ∃ undone s', (s.told statement).Talks (parting (s.reply statement) undone) s' ∧
      s'.Leaves (before ++ (statement, s.reply statement) :: parting (s.reply statement) undone)
        (s.told statement).abandon := by
  by_cases hlost : s.reply statement = .hangUp
  · refine ⟨.hangUp, s.told statement, ?_, ?_⟩
    · rw [parting, if_pos hlost]
      exact .nil _
    · rw [abandon, if_pos (by simp [told, hlost]), parting, if_pos hlost]
      exact leaves_of_last before _ hstatement _
  · have hconnected : (s.told statement).connected := by simp [told, h, hlost]
    have hlast (undone : Reply) : (before ++ (statement, s.reply statement) :: [(.control .rollback, undone)]).getLast? =
        some (.control .rollback, undone) := by
      rw [List.append_cons, List.getLast?_concat]
    refine ⟨(s.told statement).reply (.control .rollback), (s.told statement).told (.control .rollback), ?_, ?_⟩
    · rw [parting, if_neg hlost]
      exact .cons hconnected (.control .rollback) (.nil _)
    · rw [abandon, if_neg (by simp [hconnected]), exchange_eq, parting, if_neg hlost]
      cases houtcome : ((s.told statement).reply (.control .rollback)).outcome with
      | error f => exact .givenUp (hlast _) houtcome
      | ok result =>
        refine .kept fun undone f hundone => ?_
        rw [hlast] at hundone
        obtain rfl := congrArg Prod.snd (Option.some.inj hundone)
        rw [houtcome]
        simp

/-! ### Courses -/

/-- The courses that a transaction over one insertion can take: how the connection was come by, what was said over it
and what came of it. -/
inductive Course (e : Event) : Except DatabaseFault Unit → List Entry → Except DatabaseFault (List Result) → Prop
  | unreachable (f : DatabaseFault) : Course e (.error f) [] (.error f)
  | unbegun {begun : Reply} {f : DatabaseFault} (h : begun.outcome = .error f) :
    Course e (.ok ()) [(.control .start, begun)] (.error f)
  | uninserted {begun inserted undone : Reply} {start : Result} {f : DatabaseFault} (hstart : begun.outcome = .ok start)
    (h : inserted.outcome = .error f) : Course e (.ok ())
      ((.control .start, begun) :: (.insert e, inserted) :: parting inserted undone) (.error f)
  | uncommitted {begun inserted ended undone : Reply} {start result : Result} {f : DatabaseFault}
    (hstart : begun.outcome = .ok start) (hresult : inserted.outcome = .ok result) (h : ended.outcome = .error f) :
    Course e (.ok ()) ((.control .start, begun) :: (.insert e, inserted) :: (.control .commit, ended) ::
      parting ended undone) (.error f)
  | committed {begun inserted ended : Reply} {start result last : Result} (hstart : begun.outcome = .ok start)
    (hresult : inserted.outcome = .ok result) (hlast : ended.outcome = .ok last) : Course e (.ok ())
      [(.control .start, begun), (.insert e, inserted), (.control .commit, ended)] (.ok [result])

theorem exchangeAll_one (s : Session) (statement : Statement) :
    s.exchangeAll [statement] = ((s.reply statement).outcome.map fun result => [result], s.told statement) := by
  rw [exchangeAll, exchange_eq]
  cases (s.reply statement).outcome <;> rfl

/-- A transaction over one insertion takes one of the courses, over one connection. -/
theorem transaction_course (s : Session) (e : Event) : ∃ opened entries s₁ s₂, s.Opens opened s₁ ∧
    s₁.Talks entries s₂ ∧ s₂.Leaves entries (s.transaction [.insert e] .commit).2 ∧
    Course e opened entries (s.transaction [.insert e] .commit).1 := by
  have hopens := s.opens_connect
  cases hconnect : s.connect with
  | mk opened s₁ =>
    rw [hconnect] at hopens
    cases opened with
    | error f =>
      rw [transaction, execute_of_not_connect hconnect]
      exact ⟨_, [], s₁, s₁, hopens, .nil s₁, .kept nofun, .unreachable f⟩
    | ok _ =>
      have hopen := hopens.connected
      rw [transaction, execute_of_connect hconnect]
      cases hstart : (s₁.reply (.control .start)).outcome with
      | error f =>
        exact ⟨_, _, s₁, _, hopens, .cons hopen _ (.nil _), leaves_of_last [] (.control .start, _) nofun _,
          .unbegun hstart⟩
      | ok start =>
        have hbegun := connected_told hopen hstart
        simp only [exchangeAll_one]
        cases hresult : ((s₁.told (.control .start)).reply (.insert e)).outcome with
        | error f =>
          obtain ⟨undone, s₃, htalk, hleaves⟩ := talks_abandon hbegun (.insert e) nofun
            [(.control .start, s₁.reply (.control .start))]
          exact ⟨_, _, s₁, s₃, hopens, .cons hopen _ (.cons hbegun _ htalk), hleaves, .uninserted hstart hresult⟩
        | ok result =>
          have hinserted := connected_told hbegun hresult
          simp only [Except.map, exchange_eq]
          cases hlast : (((s₁.told (.control .start)).told (.insert e)).reply (.control .commit)).outcome with
          | error f =>
            obtain ⟨undone, s₄, htalk, hleaves⟩ := talks_abandon hinserted (.control .commit) nofun
              [(.control .start, s₁.reply (.control .start)),
                (.insert e, (s₁.told (.control .start)).reply (.insert e))]
            exact ⟨_, _, s₁, s₄, hopens, .cons hopen _ (.cons hbegun _ (.cons hinserted _ htalk)), hleaves,
              .uncommitted hstart hresult hlast⟩
          | ok last =>
            exact ⟨_, _, s₁, _, hopens, .cons hopen _ (.cons hbegun _ (.cons hinserted _ (.nil _))),
              leaves_of_last [_, _] (.control .commit, _) nofun _, .committed hstart hresult hlast⟩

end Session

/-! ### Accounts of saves -/

/-- Why a reply is no success. -/
def Reply.fault? (reply : Reply) : Option DatabaseFault :=
  match reply.outcome with
  | .ok _ => none
  | .error f => some f

theorem Reply.outcome_eq_error_iff {reply : Reply} {f : DatabaseFault} :
    reply.outcome = .error f ↔ (∃ text, reply = .error text ∧ f = .server text) ∨ reply = .hangUp ∧ f = Session.hungUp := by
  cases reply <;> simp [outcome, eq_comm]

theorem Reply.ne_error_of_ok {reply : Reply} {result : Result} (h : reply.outcome = .ok result) (text : String) :
    .error text ≠ reply := by
  rintro rfl
  cases h

theorem Reply.fault?_of_ok {reply : Reply} {result : Result} (h : reply.outcome = .ok result) : reply.fault? = none := by
  rw [fault?, h]

theorem Reply.fault?_of_error {reply : Reply} {f : DatabaseFault} (h : reply.outcome = .error f) :
    reply.fault? = some f := by
  rw [fault?, h]

/-- What there is to tell of a save: how it came by its connection, what was said over it, and what came of it. -/
structure Log where
  event : Event
  opened : Except DatabaseFault Unit
  entries : List Entry
  result : Except Interrupt Bool

namespace Log

variable {log : Log} {e : Event} {opened : Except DatabaseFault Unit} {entries : List Entry}
  {result : Except DatabaseFault (List Result)}

/-- The fault of the first step that failed. -/
def fault? (log : Log) : Option DatabaseFault :=
  match log.opened with
  | .error f => some f
  | .ok () => log.entries.findSome? fun entry => entry.2.fault?

/-- The insertion of a save stores its event as a row that waits. The save succeeds exactly if its transaction was
begun, filled and committed, and all three steps succeeded; it says then whether one row was inserted. Otherwise it
fails as its first step that failed, its commit has not succeeded, and if an insertion or a commit failed while the
connection was still there then it was rolled back at last. -/
structure Sound (log : Log) : Prop where
  inserts : (Statement.insert log.event).Inserts (.pending log.event)
  ok_iff : ∀ isNew, log.result = .ok isNew ↔ ∃ begun inserted ended start result last,
    log.entries = [(.control .start, begun), (.insert log.event, inserted), (.control .commit, ended)] ∧
      begun.outcome = .ok start ∧ inserted.outcome = .ok result ∧ ended.outcome = .ok last ∧
      isNew = (result.affected == 1)
  error_iff : ∀ interrupt, log.result = .error interrupt ↔
    ∃ f, log.fault? = some f ∧ interrupt = .fault (.database f)
  uncommitted : ∀ interrupt, log.result = .error interrupt →
    ∀ reply, (.control .commit, reply) ∈ log.entries → reply.fault?.isSome
  rolledBack_iff : (∃ undone, log.entries.getLast? = some (.control .rollback, undone)) ↔
    ∃ text, (.insert log.event, .error text) ∈ log.entries ∨ (.control .commit, .error text) ∈ log.entries

/-- The save of a transaction that took a course. -/
def ofCourse (e : Event) (opened : Except DatabaseFault Unit) (entries : List Entry)
    (result : Except DatabaseFault (List Result)) : Log :=
  ⟨e, opened, entries, Client.lift (result.map fun results => (results.map fun r => r.affected == 1) == [true])⟩

@[simp] theorem result_ofCourse_error (f : DatabaseFault) :
    (ofCourse e opened entries (.error f)).result = .error (.fault (.database f)) := rfl

@[simp] theorem result_ofCourse_one (r : Result) :
    (ofCourse e opened entries (.ok [r])).result = .ok (r.affected == 1) := by
  change Except.ok ([r.affected == 1] == [true]) = _
  cases r.affected == 1 <;> rfl

/-- The save's transaction took a course. -/
def TakesCourse (log : Log) : Prop :=
  ∃ opened entries result, Session.Course log.event opened entries result ∧ log = ofCourse log.event opened entries result

/-- Whether a save says that its event is new. -/
def saysNew : Except Interrupt Bool → Bool
  | .ok isNew => isNew
  | .error _ => false

theorem ok_iff_of_course (h : Session.Course e opened entries result) (isNew : Bool) :
    (ofCourse e opened entries result).result = .ok isNew ↔ ∃ begun inserted ended start result last,
      entries = [(.control .start, begun), (.insert e, inserted), (.control .commit, ended)] ∧
        begun.outcome = .ok start ∧ inserted.outcome = .ok result ∧ ended.outcome = .ok last ∧
        isNew = (result.affected == 1) := by
  cases h with
  | unreachable f => simp
  | unbegun h => simp
  | uninserted hstart h =>
    obtain ⟨text, rfl, rfl⟩ | ⟨rfl, rfl⟩ := Reply.outcome_eq_error_iff.1 h <;> simp [Session.parting]
  | uncommitted hstart hresult h =>
    obtain ⟨text, rfl, rfl⟩ | ⟨rfl, rfl⟩ := Reply.outcome_eq_error_iff.1 h <;> simp [Session.parting, Reply.outcome]
  | committed hstart hresult hlast =>
    rw [result_ofCourse_one, Except.ok.injEq]
    constructor
    · rintro rfl
      exact ⟨_, _, _, _, _, _, rfl, hstart, hresult, hlast, rfl⟩
    · rintro ⟨begun, inserted, ended, start, result, last, hentries, -, hsame, -, rfl⟩
      cases hentries
      cases hresult.symm.trans hsame
      rfl

theorem fault?_of_course (h : Session.Course e opened entries result) :
    (ofCourse e opened entries result).fault? = match result with
      | .ok _ => none
      | .error f => some f := by
  cases h with
  | unreachable f => rfl
  | unbegun h => simp [ofCourse, fault?, Reply.fault?_of_error h]
  | uninserted hstart h => simp [ofCourse, fault?, Reply.fault?_of_ok hstart, Reply.fault?_of_error h]
  | uncommitted hstart hresult h =>
    simp [ofCourse, fault?, Reply.fault?_of_ok hstart, Reply.fault?_of_ok hresult, Reply.fault?_of_error h]
  | committed hstart hresult hlast =>
    simp [ofCourse, fault?, Reply.fault?_of_ok hstart, Reply.fault?_of_ok hresult, Reply.fault?_of_ok hlast]

theorem rolledBack_iff_of_course (h : Session.Course e opened entries result) :
    (∃ undone, entries.getLast? = some (.control .rollback, undone)) ↔
      ∃ text, (.insert e, .error text) ∈ entries ∨ (.control .commit, .error text) ∈ entries := by
  cases h with
  | unreachable f => simp
  | unbegun h => simp
  | uninserted hstart h =>
    obtain ⟨text, rfl, rfl⟩ | ⟨rfl, rfl⟩ := Reply.outcome_eq_error_iff.1 h <;> simp [Session.parting]
  | uncommitted hstart hresult h =>
    have hinserted := Reply.ne_error_of_ok hresult
    obtain ⟨text, rfl, rfl⟩ | ⟨rfl, rfl⟩ := Reply.outcome_eq_error_iff.1 h
    · simp [Session.parting]
    · simp [Session.parting, hinserted]
  | committed hstart hresult hlast =>
    have hinserted := Reply.ne_error_of_ok hresult
    have hended := Reply.ne_error_of_ok hlast
    simp [hinserted, hended]

theorem uncommitted_of_course (h : Session.Course e opened entries result) {interrupt : Interrupt} {reply : Reply}
    (hfailed : (ofCourse e opened entries result).result = .error interrupt)
    (hreply : (.control .commit, reply) ∈ entries) : reply.fault?.isSome := by
  cases h with
  | unreachable f => cases hreply
  | unbegun h => simp at hreply
  | uninserted hstart h =>
    obtain ⟨text, rfl, rfl⟩ | ⟨rfl, rfl⟩ := Reply.outcome_eq_error_iff.1 h <;> simp [Session.parting] at hreply
  | uncommitted hstart hresult h =>
    have hended := Reply.fault?_of_error h
    obtain ⟨text, rfl, rfl⟩ | ⟨rfl, rfl⟩ := Reply.outcome_eq_error_iff.1 h <;> simp [Session.parting] at hreply <;>
      simp [hreply, hended]
  | committed hstart hresult hlast => cases hfailed

theorem sound_of_course (h : Session.Course e opened entries result) : (ofCourse e opened entries result).Sound where
  inserts := inserts_insert e
  ok_iff := ok_iff_of_course h
  error_iff interrupt := by
    rw [fault?_of_course h]
    cases result with
    | error f => simp [eq_comm]
    | ok results =>
      constructor
      · intro hfailed
        cases hfailed
      · rintro ⟨f, hf, -⟩
        cases hf
  uncommitted _ hfailed _ hreply := uncommitted_of_course h hfailed hreply
  rolledBack_iff := rolledBack_iff_of_course h

theorem TakesCourse.sound (h : log.TakesCourse) : log.Sound := by
  obtain ⟨opened, entries, result, hcourse, hlog⟩ := h
  rw [hlog]
  exact sound_of_course hcourse

end Log

/-! ### The server's account -/

/-- What the server knows of a transaction. -/
inductive Phase
  | idle
  /-- A transaction that inserted so many rows. -/
  | filled (rows : Nat)
  | aborted

/-- The server's account: where it is, and how many transactions that inserted one row were committed. -/
structure Ledger where
  phase : Phase := .idle
  committed : Nat := 0

namespace Ledger

/-- Commits a transaction that inserted so many rows. -/
def commit (l : Ledger) (rows : Nat) : Ledger := ⟨.idle, l.committed + if rows = 1 then 1 else 0⟩

/-- An open transaction is committed; one that was aborted is not. -/
def close (l : Ledger) : Ledger :=
  match l.phase with
  | .filled rows => l.commit rows
  | .idle | .aborted => { l with phase := .idle }

/-- Inserts so many rows; outside of transactions that is one of its own. -/
def insert (l : Ledger) (rows : Nat) : Ledger :=
  match l.phase with
  | .filled before => { l with phase := .filled (before + rows) }
  | .idle => l.commit rows
  | .aborted => l

/-- A statement that fails aborts an open transaction, and with the connection it is gone. -/
def fail (l : Ledger) (reply : Reply) : Ledger :=
  match reply, l.phase with
  | .hangUp, _ => { l with phase := .idle }
  | _, .idle => l
  | _, _ => { l with phase := .aborted }

def enter (l : Ledger) : Entry → Ledger
  | (statement, reply) =>
    match statement, reply.outcome with
    | .control .start, .ok _ => { l with phase := .filled 0 }
    | .control .commit, .ok _ => l.close
    | .control _, _ => { l with phase := .idle }
    | .insert _, .ok result => l.insert result.affected
    | _, .ok _ => l
    | _, .error _ => l.fail reply

/-- A transaction is closed when its save is over, and it was committed with one row if the save says so. -/
theorem foldl_course {e : Event} {opened : Except DatabaseFault Unit} {entries : List Entry}
    {result : Except DatabaseFault (List Result)} (h : Session.Course e opened entries result) (n : Nat) :
    entries.foldl enter ⟨.idle, n⟩ =
      ⟨.idle, n + (Log.saysNew (Log.ofCourse e opened entries result).result).toNat⟩ := by
  cases h with
  | unreachable f => rfl
  | unbegun h => simp [enter, h, Log.saysNew]
  | uninserted hstart h =>
    obtain ⟨text, rfl, rfl⟩ | ⟨rfl, rfl⟩ := Reply.outcome_eq_error_iff.1 h <;>
      simp [enter, h, hstart, fail, Session.parting, Log.saysNew]
  | uncommitted hstart hresult h =>
    obtain ⟨text, rfl, rfl⟩ | ⟨rfl, rfl⟩ := Reply.outcome_eq_error_iff.1 h <;>
      simp [enter, h, hstart, hresult, insert, Session.parting, Log.saysNew]
  | @committed _ _ _ _ result _ hstart hresult hlast =>
    by_cases hone : result.affected = 1 <;>
      simp [enter, hstart, hresult, hlast, hone, insert, close, commit, Log.saysNew]

theorem foldl_courses {logs : List Log} (h : ∀ log ∈ logs, log.TakesCourse) (n : Nat) :
    (logs.flatMap Log.entries).foldl enter ⟨.idle, n⟩ = ⟨.idle, n + (logs.map Log.result).countP Log.saysNew⟩ := by
  induction logs generalizing n with
  | nil => rfl
  | cons log logs ih =>
    obtain ⟨⟨opened, entries, result, hcourse, hlog⟩, hrest⟩ := List.forall_mem_cons.1 h
    have hfirst : log.entries.foldl enter ⟨.idle, n⟩ = ⟨.idle, n + (Log.saysNew log.result).toNat⟩ := by
      rw [hlog]
      exact foldl_course hcourse n
    rw [List.flatMap_cons, List.foldl_append, hfirst, ih hrest, List.map_cons, List.countP_cons, Nat.add_assoc]
    cases Log.saysNew log.result with
    | false => simp
    | true => simp [Nat.add_comm]

end Ledger

/-! ### Sequences of saves -/

namespace Client

variable {c c' : Client} {log : Log} {logs : List Log}

/-- Saves events one after the other. -/
def saves (c : Client) : List Event → List (Except Interrupt Bool) × Client
  | [] => ([], c)
  | e :: events =>
    let (result, c) := c.save e
    let (results, c) := c.saves events
    (result :: results, c)

/-- The log tells of the save that takes the client to another. -/
structure Logs (c : Client) (log : Log) (c' : Client) : Prop where
  save : c.save log.event = (log.result, c')
  talk : ∃ s s', c.session.Opens log.opened s ∧ s.Talks log.entries s' ∧ s'.Leaves log.entries c'.session

/-- The logs tell of saves one after the other. -/
inductive LogsAll : Client → List Log → Client → Prop
  | nil (c : Client) : LogsAll c [] c
  | cons {c c' c'' : Client} {log : Log} {logs : List Log} (h : c.Logs log c') (hrest : LogsAll c' logs c'') :
    LogsAll c (log :: logs) c''

theorem Logs.statements_eq (h : c.Logs log c') : c'.statements = c.statements ++ log.entries.map Prod.fst := by
  obtain ⟨s, s', hopens, htalk, hleaves⟩ := h.talk
  rw [statements, hleaves.sent_eq, htalk.sent_eq, hopens.sent_eq, statements]

theorem save_eq (c : Client) (e : Event) : c.save e =
    (lift ((c.session.transaction [.insert e] .commit).1.map fun results =>
      (results.map fun r => r.affected == 1) == [true]),
      { c with session := (c.session.transaction [.insert e] .commit).2 }) := by
  rw [save, saveTogether, List.map_singleton]
  cases c.session.transaction [.insert e] .commit with
  | mk results s => cases results <;> rfl

theorem LogsAll.statements_eq (h : c.LogsAll logs c') :
    c'.statements = c.statements ++ logs.flatMap fun log => log.entries.map Prod.fst := by
  induction h with
  | nil c => exact (List.append_nil _).symm
  | cons h _ ih => rw [ih, h.statements_eq, List.append_assoc, List.flatMap_cons]

theorem exists_log (c : Client) (e : Event) :
    ∃ log, c.Logs log (c.save e).2 ∧ log.event = e ∧ log.result = (c.save e).1 ∧ log.TakesCourse := by
  obtain ⟨opened, entries, s, s', hopens, htalk, hleaves, hcourse⟩ := c.session.transaction_course e
  refine ⟨.ofCourse e opened entries _, ⟨?_, s, s', hopens, htalk, ?_⟩, rfl, ?_, opened, entries, _, hcourse, rfl⟩
  · rw [save_eq]
    rfl
  · rwa [save_eq]
  · rw [save_eq]
    rfl

theorem exists_logs (c : Client) (events : List Event) : ∃ logs, c.LogsAll logs (c.saves events).2 ∧
    logs.map Log.event = events ∧ logs.map Log.result = (c.saves events).1 ∧ ∀ log ∈ logs, log.TakesCourse := by
  induction events generalizing c with
  | nil => exact ⟨[], .nil c, rfl, rfl, List.forall_mem_nil _⟩
  | cons e events ih =>
    obtain ⟨log, hlog, hevent, hresult, hcourse⟩ := c.exists_log e
    obtain ⟨logs, hlogs, hevents, hresults, hcourses⟩ := ih (c.save e).2
    refine ⟨log :: logs, .cons hlog hlogs, ?_, ?_, List.forall_mem_cons.2 ⟨hcourse, hcourses⟩⟩
    · rw [List.map_cons, hevent, hevents]
    · rw [List.map_cons, hresult, hresults]
      rfl

/-- Each save of a sequence succeeds exactly if its transaction was committed, as its log tells; and as many
transactions that inserted a row were committed as saves say that their event is new. -/
theorem saves_sound (c : Client) (events : List Event) : ∃ logs, c.LogsAll logs (c.saves events).2 ∧
    logs.map Log.event = events ∧ logs.map Log.result = (c.saves events).1 ∧ (∀ log ∈ logs, log.Sound) ∧
    (c.saves events).2.statements = c.statements ++ logs.flatMap (fun log => log.entries.map Prod.fst) ∧
    ((logs.flatMap Log.entries).foldl Ledger.enter {}).committed = (c.saves events).1.countP Log.saysNew := by
  obtain ⟨logs, hlogs, hevents, hresults, hcourses⟩ := c.exists_logs events
  refine ⟨logs, hlogs, hevents, hresults, fun log hlog => (hcourses log hlog).sound, hlogs.statements_eq, ?_⟩
  rw [Ledger.foldl_courses hcourses 0, hresults, Nat.zero_add]

/-- A client of a server that refuses the first connection, inserts the row of one event and not that of another, then
fails to commit, and at last fails to insert. -/
def unlucky : Client where
  session := {
    server := {
      welcomes := [.refuse "starting up", .accept]
      replies := [.done 1, .done 0, .done 1, .error "disk full"]
      controls := [(.commit, .done 0), (.commit, .done 0), (.commit, .error "deadlock detected")] } }

def numbered (id : Int) : Event where
  id := id
  aggregateType := "Order"
  aggregateId := "order-1"
  kind := "OrderPlaced"
  payload := [123, 125]
  createdAt := .epoch

/-- Of five saves two succeed, of which one says that its event is new, and two are rolled back. -/
theorem unlucky_saves_sound :
    let events := [1, 2, 3, 4, 5].map numbered
    (unlucky.saves events).1 = [fault (.server "starting up"), .ok true, .ok false,
      fault (.server "deadlock detected"), fault (.server "disk full")] ∧
    (unlucky.saves events).2.statements = [
      .control .start, .insert (numbered 2), .control .commit,
      .control .start, .insert (numbered 3), .control .commit,
      .control .start, .insert (numbered 4), .control .commit, .control .rollback,
      .control .start, .insert (numbered 5), .control .rollback] ∧
    ∃ logs, unlucky.LogsAll logs (unlucky.saves events).2 ∧ (∀ log ∈ logs, log.Sound) ∧
      ((logs.flatMap Log.entries).foldl Ledger.enter {}).committed = 1 := by
  intro events
  obtain ⟨logs, hlogs, -, -, hsound, -, hcommitted⟩ := unlucky.saves_sound events
  exact ⟨by rfl, by rfl, logs, hlogs, hsound, hcommitted⟩

end Client

end Outbox.Postgres
