import Mathlib.Data.List.Basic
import Mathlib.Order.Bounds.Basic
import Outbox.Service.Database

/-! Where attempts end. An operation that is tried again goes through states that are known before it is known how many
attempts there are, and its attempts end at the least number at which one succeeds, fails for good or is the last that
is granted. A record kept beside the operation shows the attempts up to that number, each once and in order, and
between them the delays of the policy. The database is connected so. -/

namespace Outbox

namespace Retry

variable {σ ε α : Type} {p : Policy} {op : Operation σ ε α} {most : Nat} {s : σ}

namespace Operation

/-- The state in which the attempt after the first `n` is made, if all of these fail. -/
def reached (op : Operation σ ε α) (p : Policy) (s : σ) : (n : Nat) → σ
  | 0 => s
  | n + 1 => op.wait (p.backoff (n + 1)) (op.run (n + 1) (reached op p s n)).2

/-- The attempt of a number from 1 on: what comes out, and the state after it. -/
def attempt (op : Operation σ ε α) (p : Policy) (s : σ) (n : Nat) : Except ε α × σ := op.run n (op.reached p s (n - 1))

/-- No attempt follows one of this number that came out so. -/
def Ends (op : Operation σ ε α) (most n : Nat) : Except ε α → Prop
  | .ok _ => True
  | .error e => op.isTransient e = false ∨ most ≤ n

/-- What an outcome comes to if no attempt follows. -/
def verdict (op : Operation σ ε α) : Except ε α → Verdict ε α
  | .ok a => .succeeded a
  | .error e => if op.isTransient e then .gaveUp e else .refused e

/-- The number of the last attempt. -/
def IsLast (op : Operation σ ε α) (p : Policy) (most : Nat) (s : σ) (k : Nat) : Prop :=
  IsLeast {n | 1 ≤ n ∧ op.Ends most n (op.attempt p s n).1} k

end Operation

/-! ### One attempt after the other -/

/-- An attempt that ends the attempts. -/
theorem attemptFrom_of_ends {more n : Nat} (h : op.Ends (n + more + 1) (n + 1) (op.run (n + 1) s).1) :
    attemptFrom p op more (n + 1) s = (op.verdict (op.run (n + 1) s).1, (op.run (n + 1) s).2) := by
  rcases hrun : op.run (n + 1) s with ⟨outcome, s'⟩
  rw [hrun] at h
  unfold attemptFrom
  simp only [hrun]
  cases outcome with
  | ok a => rfl
  | error e =>
    cases htransient : op.isTransient e with
    | false => simp [Operation.verdict, htransient]
    | true =>
      have hmore : more = 0 := by
        rcases h with hrefused | hle
        · rw [htransient] at hrefused
          cases hrefused
        · omega
      subst hmore
      simp [Operation.verdict, htransient]

/-- An attempt that another one follows, after the delay. -/
theorem attemptFrom_of_not_ends {more n : Nat} (h : ¬op.Ends (n + more + 1) (n + 1) (op.run (n + 1) s).1) :
    ∃ fewer, more = fewer + 1 ∧ attemptFrom p op more (n + 1) s =
      attemptFrom p op fewer (n + 1 + 1) (op.wait (p.backoff (n + 1)) (op.run (n + 1) s).2) := by
  rcases hrun : op.run (n + 1) s with ⟨outcome, s'⟩
  rw [hrun] at h
  cases outcome with
  | ok a => exact absurd trivial h
  | error e =>
    obtain ⟨htransient, hmore⟩ := not_or.1 h
    obtain ⟨fewer, rfl⟩ : ∃ fewer, more = fewer + 1 := ⟨more - 1, by omega⟩
    refine ⟨fewer, rfl, ?_⟩
    rw [Bool.not_eq_false] at htransient
    rw [attemptFrom]
    simp [hrun, htransient]

/-- The attempts after the first `n`, none of which was the last. -/
theorem attemptFrom_reached (p : Policy) (op : Operation σ ε α) (s : σ) (more n : Nat)
    (h : ∀ j, 1 ≤ j → op.Ends (n + more + 1) j (op.attempt p s j).1 → n < j) :
    ∃ k, op.IsLast p (n + more + 1) s k ∧ k ≤ n + more + 1 ∧
      attemptFrom p op more (n + 1) (op.reached p s n) = (op.verdict (op.attempt p s k).1, (op.attempt p s k).2) := by
  induction more generalizing n with
  | zero =>
    have hends : op.Ends (n + 0 + 1) (n + 1) (op.run (n + 1) (op.reached p s n)).1 := by
      cases (op.run (n + 1) (op.reached p s n)).1 with
      | ok a => trivial
      | error e => exact .inr (Nat.le_refl _)
    exact ⟨n + 1, ⟨⟨Nat.le_add_left _ _, hends⟩, fun j hj => h j hj.1 hj.2⟩, Nat.le_refl _, attemptFrom_of_ends hends⟩
  | succ more ih =>
    by_cases hends : op.Ends (n + (more + 1) + 1) (n + 1) (op.run (n + 1) (op.reached p s n)).1
    · exact ⟨n + 1, ⟨⟨Nat.le_add_left _ _, hends⟩, fun j hj => h j hj.1 hj.2⟩, by omega, attemptFrom_of_ends hends⟩
    · obtain ⟨fewer, hmore, hnext⟩ := attemptFrom_of_not_ends hends
      obtain rfl : more = fewer := Nat.succ.inj hmore
      have hlimit : n + (more + 1) + 1 = n + 1 + more + 1 := by omega
      rw [hlimit] at h hends ⊢
      rw [hnext]
      refine ih (n + 1) fun j hj hend => Nat.lt_of_le_of_ne (h j hj hend) ?_
      rintro rfl
      exact hends hend

/-- A limit of no attempts counts as one. -/
theorem Operation.isLast_pred_iff {k : Nat} : op.IsLast p (most - 1 + 1) s k ↔ op.IsLast p most s k := by
  have hends (n : Nat) (outcome : Except ε α) :
      1 ≤ n ∧ op.Ends (most - 1 + 1) n outcome ↔ 1 ≤ n ∧ op.Ends most n outcome := by
    refine and_congr_right fun hn => ?_
    cases outcome with
    | ok a => exact Iff.rfl
    | error e =>
      refine or_congr_right ?_
      omega
  simp only [IsLast, hends]

/-- The attempts end at the least number at which one succeeds, is refused or is the last that is granted. -/
theorem exists_isLast (p : Policy) (op : Operation σ ε α) (most : Nat) (s : σ) :
    ∃ k, op.IsLast p most s k ∧ k ≤ max 1 most ∧
      attempts p op most s = (op.verdict (op.attempt p s k).1, (op.attempt p s k).2) := by
  obtain ⟨k, hlast, hle, heq⟩ := attemptFrom_reached p op s (most - 1) 0 fun _ hj _ => hj
  rw [Nat.zero_add] at hlast hle
  exact ⟨k, Operation.isLast_pred_iff.1 hlast, by omega, heq⟩

/-! ### Records -/

/-- What is done in the course of attempts. -/
inductive Act
  | tried (attempt : Nat)
  | waited (delay : Span)
deriving DecidableEq, Repr, Inhabited

/-- The operation beside a record of what is done, the earliest first. -/
def Operation.recorded (op : Operation σ ε α) : Operation (σ × List Act) ε α where
  run n s := ((op.run n s.1).1, (op.run n s.1).2, s.2 ++ [.tried n])
  isTransient := op.isTransient
  wait delay s := (op.wait delay s.1, s.2 ++ [.waited delay])

/-- Attempts from the first on, each of which is followed by the delay after it. -/
def Policy.rounds (p : Policy) (n : Nat) : List Act :=
  (List.range' 1 n).flatMap fun attempt => [.tried attempt, .waited (p.backoff attempt)]

/-- All that is done up to the end of an attempt: no delay follows it. -/
def Policy.course (p : Policy) (k : Nat) : List Act := p.rounds (k - 1) ++ [.tried k]

theorem Policy.rounds_succ (p : Policy) (n : Nat) :
    p.rounds (n + 1) = p.rounds n ++ [.tried (n + 1), .waited (p.backoff (n + 1))] := by
  rw [rounds, rounds, List.range'_concat, List.flatMap_append, Nat.one_mul, Nat.add_comm 1 n]
  rfl

namespace Operation

theorem reached_recorded (p : Policy) (op : Operation σ ε α) (s : σ) (n : Nat) :
    op.recorded.reached p (s, []) n = (op.reached p s n, p.rounds n) := by
  induction n with
  | zero => rfl
  | succ n ih =>
    rw [reached, ih, p.rounds_succ, List.append_cons]
    rfl

theorem attempt_recorded (p : Policy) (op : Operation σ ε α) (s : σ) (k : Nat) :
    op.recorded.attempt p (s, []) k = ((op.attempt p s k).1, (op.attempt p s k).2, p.course k) := by
  rw [attempt, reached_recorded]
  rfl

theorem ends_recorded {n : Nat} {outcome : Except ε α} :
    op.recorded.Ends most n outcome ↔ op.Ends most n outcome := by
  cases outcome <;> rfl

theorem verdict_recorded (op : Operation σ ε α) (outcome : Except ε α) :
    op.recorded.verdict outcome = op.verdict outcome := by
  cases outcome <;> rfl

/-- The record changes nothing in where the attempts end. -/
theorem isLast_recorded {k : Nat} : op.recorded.IsLast p most (s, []) k ↔ op.IsLast p most s k := by
  simp only [IsLast, attempt_recorded, ends_recorded]

end Operation

end Retry

/-! ### Connecting -/

namespace Service

open Postgres (Client Session)
open Retry (Operation Policy)

/-- How opening the database ends, by the last attempt to connect. -/
def opened : Except DatabaseFault Unit × Session → Except Breakdown Unit × Client
  | (.ok (), session) =>
    let (result, client) := ({ session := session } : Client).ensureSchema
    (result.mapError Breakdown.ofInterrupt, client)
  | (.error e, session) => (.error (connectFailure e), { session := session })

theorem openDatabase_eq_opened {s : Settings} {url : String} {size : UInt32} (hurl : s.databaseUrl = some url)
    (hsize : s.poolSize? = some size) (session : Session) :
    ∃ k, (connectTo url).IsLast s.policy connectAttempts session k ∧ k ≤ connectAttempts ∧
      openDatabase s session = opened ((connectTo url).attempt s.policy session k) := by
  obtain ⟨k, hlast, hle, heq⟩ := Retry.exists_isLast s.policy (connectTo url) connectAttempts session
  refine ⟨k, hlast, hle, ?_⟩
  rw [openDatabase, hurl, hsize]
  dsimp only
  rw [heq]
  obtain ⟨outcome, session'⟩ := (connectTo url).attempt s.policy session k
  cases outcome with
  | ok _ => rfl
  | error e => cases htransient : (connectTo url).isTransient e <;> simp [Operation.verdict, htransient, opened]

/-- Attempts at any operation end at the least number at which one succeeds, is refused because its failure is not
transient, or is the last that is granted; of no attempts one is granted all the same. The outcome at that number is
the outcome of all. The attempts are made in order, once each, and after each but the last the delay of the policy is
waited for and nothing else is done. The database is opened in five attempts: it is told which problem the last one
met, if that did not connect, and none is made without a URL or with a number of connections that does not fit. -/
theorem ended_by_last_attempt :
    (∀ {σ ε α : Type} (p : Policy) (most : Nat) (op : Operation σ ε α) (s : σ),
      ∃ k, op.IsLast p most s k ∧ k ≤ max 1 most ∧
        Retry.attempts p op most s = (op.verdict (op.attempt p s k).1, (op.attempt p s k).2) ∧
        Retry.attempts p op.recorded most (s, []) =
          (op.verdict (op.attempt p s k).1, (op.attempt p s k).2, p.course k)) ∧
    ∀ (settings : Settings) (session : Session),
      settings.databaseUrl = none ∧
        openDatabase settings session = (.error (.problem "DATABASE_URL is not set" []), { session := session }) ∨
      settings.poolSize? = none ∧ openDatabase settings session = (.error (.crash poolOverflow), { session := session }) ∨
      ∃ url k, settings.databaseUrl = some url ∧ (connectTo url).IsLast settings.policy 5 session k ∧ k ≤ 5 ∧
        openDatabase settings session = opened ((connectTo url).attempt settings.policy session k) := by
  refine ⟨fun p most op s => ?_, fun settings session => ?_⟩
  · obtain ⟨k, hlast, hle, heq⟩ := Retry.exists_isLast p op most s
    refine ⟨k, hlast, hle, heq, ?_⟩
    obtain ⟨k', hlast', -, heq'⟩ := Retry.exists_isLast p op.recorded most (s, [])
    obtain rfl : k' = k := IsLeast.unique (Operation.isLast_recorded.1 hlast') hlast
    rw [heq', Operation.attempt_recorded, Operation.verdict_recorded]
  · cases hurl : settings.databaseUrl with
    | none =>
      refine .inl ⟨rfl, ?_⟩
      rw [openDatabase, hurl]
    | some url =>
      cases hsize : settings.poolSize? with
      | none =>
        refine .inr (.inl ⟨rfl, ?_⟩)
        rw [openDatabase, hurl, hsize]
      | some size =>
        obtain ⟨k, hlast, hle, heq⟩ := openDatabase_eq_opened hurl hsize session
        exact .inr (.inr ⟨url, k, rfl, hlast, hle, heq⟩)

/-- The third of three attempts succeeds after two delays, and where none is granted the first one is the last. -/
example :
    let op : Operation Unit Bool Nat := ⟨fun n s => (if n < 3 then .error true else .ok n, s), id, fun _ s => s⟩
    (Retry.attempts {} op.recorded 3 ((), [])).2.2 =
      [.tried 1, .waited (.ofSeconds 5), .tried 2, .waited (.ofSeconds 10), .tried 3] ∧
    (Retry.attempts {} op.recorded 0 ((), [])).2.2 = [.tried 1] := by decide

end Service

end Outbox
