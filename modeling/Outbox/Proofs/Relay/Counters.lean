import Mathlib.Algebra.Group.Nat.Defs
import Mathlib.Algebra.Group.Prod
import Mathlib.Algebra.GroupWithZero.Nat
import Outbox.Proofs.Relay.Bookkeeping
import Outbox.Proofs.Store.Lifecycle
import Outbox.Proofs.Store.Queue

/-! What the counters of a relay tell of the rows of a table at which nobody else is. What a story marked with effect is
what the counts of the table grow by, and of the rows that a tick claimed each is published or fails at most once. The
totals of a tick are counted when it comes to a report, failures as they happen: so the counters account for all that
the relay did, but for the rows that a tick claimed which a fault ended. -/

namespace Outbox

/-- All failures that were counted. -/
def Metrics.failures (m : Metrics) : Nat := (m.failed.map Prod.snd).sum

/-- The numbers of rows that were claimed, published and given up. -/
def Metrics.totals (m : Metrics) : Nat × Nat × Nat := (m.claimed, m.published, m.deadLettered)

theorem Metrics.sum_increment (label : String) (counts : Labelled Nat) :
    ((increment label counts).map Prod.snd).sum = (counts.map Prod.snd).sum + 1 := by
  rw [increment]
  induction counts with
  | nil => rfl
  | cons first rest ih =>
    rw [alter]
    split
    · simp only [List.map_cons, List.sum_cons]
      omega
    · split
      · simp only [List.map_cons, List.sum_cons]
        omega
      · simp only [List.map_cons, List.sum_cons, ih]
        omega

namespace Relay

def Report.totals (report : Report) : Nat × Nat × Nat := (report.claimed, report.published, report.deadLettered)

/-! ### What a story did to rows -/

namespace Exchange

/-- How many rows the answer says were marked with a status. -/
def moved (s : Status) : Exchange → Nat
  | ⟨.ask request, .ok answer⟩ => if request.verdict? = some s then request.tally answer else 0
  | _ => 0

/-- The failures that are counted. -/
def failures : Exchange → Nat
  | ⟨.note (.publishFailure _), _⟩ => 1
  | _ => 0

/-- No row is claimed, published or given up, and none is counted as failed. -/
structure Idle (exchange : Exchange) : Prop where
  claimed : exchange.claimed = []
  published : exchange.moved .published = 0
  deadLettered : exchange.moved .deadLettered = 0
  failures : exchange.failures = 0

theorem idle_error (request : Request) (e : Interrupt) : Idle ⟨.ask request, .error e⟩ := by
  cases request <;> exact ⟨rfl, rfl, rfl, rfl⟩

end Exchange

namespace Story

def moved (s : Status) : Story → Nat
  | [] => 0
  | exchange :: earlier => moved s earlier + exchange.moved s

def failures : Story → Nat
  | [] => 0
  | exchange :: earlier => failures earlier + exchange.failures

theorem failures_metrics (story : Story) (m : Metrics) : (story.metrics m).failures = m.failures + story.failures := by
  induction story with
  | nil => rfl
  | cons exchange earlier ih =>
    change (exchange.count (Story.metrics earlier m)).failures = m.failures + (Story.failures earlier + exchange.failures)
    rw [← Nat.add_assoc, ← ih]
    obtain ⟨action, answer⟩ := exchange
    cases action with
    | note measurement =>
      cases measurement with
      | publishFailure => exact Metrics.sum_increment _ _
      | tick | tickError | outcomes | publish | rows | idGenerated | clockRegression => rfl
    | ask | now | elapsed | deliver => rfl

/-- The numbers of rows that were claimed, published and given up. -/
def totals (story : Story) : Nat × Nat × Nat := (story.claimed.length, story.moved .published, story.moved .deadLettered)

/-- Of the claimed rows `left` are open, the others were published or failed; of the failed ones `failed` are open, the
others were given up or not. -/
structure Covered (story : Story) (left failed : Nat) : Prop where
  settled : story.moved .published + story.failures + left ≤ story.claimed.length
  buried : story.moved .deadLettered + failed ≤ story.failures

/-- Besides, a report tells the totals. -/
structure Books (story : Story) (report : Report) (left failed : Nat) : Prop extends story.Covered left failed where
  totals_eq : report.totals = story.totals

variable {story : Story} {report : Report} {left failed : Nat} {exchange : Exchange}

theorem totals_eq_iff : report.totals = story.totals ↔ report.claimed = story.claimed.length ∧
    report.published = story.moved .published ∧ report.deadLettered = story.moved .deadLettered := by
  rw [Report.totals, totals, Prod.mk.injEq, Prod.mk.injEq]

theorem claimed_cons (exchange : Exchange) (story : Story) :
    claimed (exchange :: story) = exchange.claimed ++ story.claimed :=
  List.flatMap_cons

theorem totals_cons_of_idle (hidle : exchange.Idle) (story : Story) : totals (exchange :: story) = story.totals := by
  rw [totals, moved, moved, claimed_cons, hidle.claimed, hidle.published, hidle.deadLettered]
  rfl

theorem Covered.idle (h : story.Covered left failed) (hidle : exchange.Idle) : Covered (exchange :: story) left failed where
  settled := by
    rw [moved, failures, claimed_cons, hidle.claimed, hidle.published, hidle.failures]
    exact h.settled
  buried := by
    rw [moved, failures, hidle.deadLettered, hidle.failures]
    exact h.buried

theorem Books.idle (h : story.Books report left failed) (hidle : exchange.Idle) :
    Books (exchange :: story) report left failed :=
  ⟨h.toCovered.idle hidle, h.totals_eq.trans (totals_cons_of_idle hidle story).symm⟩

/-- What is open need not be settled. -/
theorem Covered.close (h : story.Covered left failed) : story.Covered 0 0 where
  settled := Nat.le_trans (Nat.le_add_right _ _) h.settled
  buried := Nat.le_trans (Nat.le_add_right _ _) h.buried

/-- An open row that fails may be given up. -/
theorem Books.fail (h : story.Books report (left + 1) failed) (retryable : Bool) :
    Books (⟨.note (.publishFailure retryable), ()⟩ :: story) report left (failed + 1) where
  settled := by
    have hsettled := h.settled
    change story.moved .published + (story.failures + 1) + left ≤ story.claimed.length
    omega
  buried := Nat.succ_le_succ h.buried
  totals_eq := h.totals_eq

/-- A row that failed need not be given up. -/
theorem Books.spare (h : story.Books report left (failed + 1)) : story.Books report left failed :=
  { h with buried := Nat.le_of_succ_le h.buried }

end Story

/-- Of rows that are published or dead there are as many more after a call as its answer says that it marked. -/
theorem count_after {s : Status} (hs : s.isTerminal) (t : Table) (request : Request) :
    (t.after request).count s = t.count s + Exchange.moved s ⟨.ask request, (t.answer request).1⟩ := by
  cases request with
  | save e => exact Table.count_save hs t e
  | claim p limit now stuck =>
    cases hclaim : t.claim p limit now stuck with
    | none =>
      rw [Table.after_claim_none hclaim, Table.answer_claim_none hclaim]
      rfl
    | some answer =>
      rw [Table.after_claim hclaim, Table.answer_claim hclaim]
      exact Table.count_claim hs hclaim
  | markPublished ids now =>
    change _ = t.count s + if some Status.published = some s then (t.markPublished now ids).1 else 0
    simp only [Option.some.injEq]
    exact Table.count_markPublished hs t now ids
  | markFailed id cause delay now =>
    change _ = t.count s + if some Status.failed = some s then (t.markFailed id cause delay now).1.toNat else 0
    simp only [Option.some.injEq]
    exact Table.count_settle hs (·.id_failed cause delay now) (fun _ => rfl) t id
  | markDead id cause now =>
    change _ = t.count s + if some Status.deadLettered = some s then (t.markDead id cause now).1.toNat else 0
    simp only [Option.some.injEq]
    exact Table.count_settle hs (·.id_deadLettered cause now) (fun _ => rfl) t id
  | counts => rfl

/-! ### The books of a tick -/

variable {story : Story} {report : Report} {left failed : Nat}

/-- No more rows are marked than a call names. -/
def Modest : Exchange → Prop
  | ⟨.ask request, .ok answer⟩ => request.tally answer ≤ request.targets.length
  | _ => True

theorem modest_answer (t : Table) (request : Request) : Modest ⟨.ask request, (t.answer request).1⟩ := by
  cases request with
  | markPublished ids now => exact t.fst_markPublished_le now ids
  | claim p limit now stuck =>
    rw [Table.answer]
    split
    · exact Nat.le_refl 0
    · trivial
  | save | counts => exact Nat.le_refl 0
  | markFailed | markDead => exact Bool.toNat_le _

/-- A condition holds at the end of a program, as long as no mark is answered with too many rows. -/
abbrev Program.Enters {α : Type} (post : α → Story → Prop) (x : Program α) (story : Story) : Prop :=
  x.Abides Modest (fun _ _ => True) post story

/-- The same for a program that leaves at least a covered story if it is interrupted. -/
abbrev Program.Interruptible.Enters {α : Type} (post : α → Story → Prop) (x : Program.Interruptible α)
    (story : Story) : Prop :=
  x.Abides Modest (fun _ _ => True) (fun _ s => s.Covered 0 0) post story

theorem perform_books {action : Action} (h : story.Books report left failed)
    (hidle : ∀ answer, Exchange.Idle ⟨action, answer⟩) :
    (Program.perform action).Enters (fun _ s => s.Books report left failed) story :=
  ⟨trivial, fun answer _ => h.idle (hidle answer)⟩

theorem note_books (retryable : Bool) (h : story.Books report (left + 1) failed) :
    (Program.note (.publishFailure retryable)).Enters (fun _ s => s.Books report left (failed + 1)) story :=
  ⟨trivial, fun _ _ => h.fail retryable⟩

/-- A mark is dated by the clock, and whatever it is answered is entered in the books. -/
theorem mark_books {β : Type} {request : Instant → Request} {post : β → Story → Prop}
    {rest : (time : Instant) → (request time).Answer → Program.Interruptible β} (h : story.Books report left failed)
    (hrest : ∀ time answer (s : Story), s.Books report left failed → Modest ⟨.ask (request time), .ok answer⟩ →
      (rest time answer).Enters post (⟨.ask (request time), .ok answer⟩ :: s)) :
    (liftM Program.now >>= fun time => Program.ask (request time) >>= rest time :
      Program.Interruptible β).Enters post story := by
  refine .bind (.lift (perform_books h fun _ => ⟨rfl, rfl, rfl, rfl⟩)) fun time s hs => ?_
  refine .bind (.ask trivial fun e _ => (hs.toCovered.idle (Exchange.idle_error _ e)).close) ?_
  rintro answer _ ⟨hmodest, rfl⟩
  exact hrest time answer s hs hmodest

theorem Posts.idle {action : Action} (h : Posts story action) (answer : action.Answer) :
    Exchange.Idle ⟨action, answer⟩ := by
  cases action with
  | note m =>
    cases m with
    | publish => exact ⟨rfl, rfl, rfl, rfl⟩
    | tick | tickError | outcomes | publishFailure | rows | idGenerated | clockRegression => cases h
  | deliver => exact ⟨rfl, rfl, rfl, rfl⟩
  | ask | now | elapsed => cases h

theorem process_books (p : Publisher) (rows : List Row) (h : story.Books report left failed) :
    (p.process rows).Enters (fun batch s =>
      batch.delivered.length + batch.failed.length = rows.length ∧ s.Books report left failed) story :=
  ((process_posts p rows story).keep h fun _ _ answer hs hposts => hs.idle (hposts.idle answer)).widen
    fun _ _ _ => trivial

theorem recordDelivered_books {ids : List Int} {claimed : Nat}
    (h : story.Books { claimed := claimed } (ids.length + left) failed) :
    (recordDelivered ids { claimed := claimed }).Enters (fun report s => s.Books report left failed) story := by
  rw [recordDelivered]
  split
  · next hempty =>
    rw [List.isEmpty_iff] at hempty
    subst hempty
    rw [List.length_nil, Nat.zero_add] at h
    exact .pure h
  · refine mark_books h fun time marked s hs hmodest => ?_
    change Nat at marked
    have hle : marked ≤ ids.length := hmodest
    have hsettled := hs.settled
    obtain ⟨hclaimed, hpublished, hdead⟩ := Story.totals_eq_iff.1 hs.totals_eq
    dsimp only
    rw [if_neg (Nat.not_lt.2 hle)]
    refine .pure { hs with settled := ?_, totals_eq := Story.totals_eq_iff.2 ⟨hclaimed, ?_, hdead⟩ }
    · change s.moved .published + marked + s.failures + left ≤ s.claimed.length
      omega
    · change marked = s.moved .published + marked
      rw [← hpublished, Nat.zero_add]

theorem bury_books (g : Graveyard) (row : FailedRow) (delay : Span) (h : story.Books report left (failed + 1)) :
    (g.bury row delay).Enters (fun burial s => s.Books (report.addBurial burial) left failed) story := by
  have hproblem (deliveries : List Delivery) (s : Story) (hs : s.Books report left (failed + 1)) :
      (liftM (g.problem (deliveries.headD .timedOut)) : Program.Interruptible (Option String)).Enters
        (fun _ s => s.Books report left (failed + 1)) s := by
    refine .ofExcept ?_
    cases g.problem (deliveries.headD .timedOut)
    · exact hs.toCovered.close
    · exact hs
  rw [Graveyard.bury]
  refine .bind (.lift (perform_books h fun _ => ⟨rfl, rfl, rfl, rfl⟩)) fun now s₁ h₁ => ?_
  refine .bind (.lift (perform_books h₁ fun _ => ⟨rfl, rfl, rfl, rfl⟩)) fun deliveries s₂ h₂ => ?_
  refine .bind (hproblem deliveries s₂ h₂) fun problem s₃ h₃ => ?_
  split
  · -- The row is given up if it was marked dead.
    refine mark_books h₃ fun time marked s hs _ => .pure ?_
    obtain ⟨hclaimed, hpublished, hdead⟩ := Story.totals_eq_iff.1 hs.totals_eq
    cases marked with
    | true => exact {
        settled := hs.settled
        buried := Nat.le_trans (Nat.le_of_eq (Nat.add_right_comm _ _ _)) hs.buried
        totals_eq := Story.totals_eq_iff.2 ⟨hclaimed, hpublished, congrArg (· + 1) hdead⟩ }
    | false => exact ⟨hs.spare.toCovered.idle ⟨rfl, rfl, rfl, rfl⟩, hs.totals_eq⟩
  · refine mark_books h₃ fun time marked s hs _ => .pure ?_
    cases marked <;> exact ⟨hs.spare.toCovered.idle ⟨rfl, rfl, rfl, rfl⟩, hs.totals_eq⟩

theorem recordFailed_books (relay : Relay) (row : FailedRow) (h : story.Books report (left + 1) failed) :
    (relay.recordFailed row report).Enters (fun report s => s.Books report left failed) story := by
  rw [recordFailed]
  refine .bind (.lift (note_books row.retryable h)) fun _ s hs => ?_
  split
  · refine mark_books hs fun time marked s₁ h₁ _ => .pure ?_
    cases marked <;> exact ⟨h₁.spare.toCovered.idle ⟨rfl, rfl, rfl, rfl⟩, h₁.totals_eq⟩
  · exact .bind (bury_books relay.graveyard row _ hs) fun burial s₁ h₁ => .pure h₁

theorem recordAllFailed_books (relay : Relay) (rows : List FailedRow)
    (h : story.Books report (rows.length + left) failed) :
    (relay.recordAllFailed rows report).Enters (fun report s => s.Books report left failed) story := by
  induction rows generalizing story report with
  | nil =>
    rw [List.length_nil, Nat.zero_add] at h
    exact .pure h
  | cons row rest ih =>
    rw [List.length_cons, Nat.add_right_comm] at h
    rw [recordAllFailed]
    exact .bind (recordFailed_books relay row h) fun report₁ s h₁ => ih h₁

/-- The work on rows that were just claimed leaves nothing open if it comes to a report. -/
theorem work_books (relay : Relay) {rows : List Row} (h : story.Books { claimed := rows.length } rows.length 0) :
    (relay.work rows).Enters (fun report s => s.Books report 0 0) story := by
  rw [work]
  split
  · next hempty =>
    rw [List.isEmpty_iff] at hempty
    subst hempty
    exact .pure h
  · refine .bind (.lift (process_books relay.publisher rows h)) ?_
    rintro batch s₁ ⟨hbatch, h₁⟩
    have hopen : s₁.Books { claimed := rows.length } (batch.delivered.length + batch.failed.length) 0 := by rwa [hbatch]
    exact .bind (recordDelivered_books hopen) fun report s₂ h₂ => recordAllFailed_books relay batch.failed h₂

theorem tickAt_books (relay : Relay) (now : Instant) (h : story.Books {} 0 0) :
    (relay.tickAt now).Enters (fun report s => s.Books report 0 0) story := by
  rw [tickAt_eq]
  refine .bind (.ask trivial fun e _ => h.toCovered.idle (Exchange.idle_error _ e)) ?_
  rintro rows _ ⟨-, rfl⟩
  obtain ⟨hclaimed, hpublished, hdead⟩ := Story.totals_eq_iff.1 h.totals_eq
  have hsettled := h.settled
  rw [← hclaimed] at hsettled
  have hrows : Story.claimed (⟨.ask (.claim relay.config.partition relay.config.batchSize now relay.config.stuck),
      .ok rows⟩ :: story) = rows := by
    rw [Story.claimed_cons, List.length_eq_zero_iff.1 hclaimed.symm, List.append_nil]
    rfl
  refine work_books relay ⟨⟨?_, h.buried⟩, Story.totals_eq_iff.2 ⟨?_, hpublished, hdead⟩⟩
  · rw [hrows]
    change story.moved .published + story.failures + rows.length ≤ rows.length
    exact Nat.le_trans (Nat.add_le_add_right hsettled rows.length) (Nat.le_of_eq (Nat.zero_add _))
  · rw [hrows]

/-! ### Runs at a table of one's own -/

namespace SharedSurroundings

theorem modest_of_answer (c : SharedSurroundings) (s : Scene) (action : Action) :
    Modest ⟨action, (c.answer s action).1⟩ := by
  cases action with
  | ask request =>
    obtain ⟨fault, hanswer⟩ | hanswer := c.answer_ask s request
    · rw [hanswer]
      trivial
    · rw [hanswer]
      exact modest_answer s.table request
  | now | elapsed | note | deliver => trivial

/-- What a tick leaves: the books of its report, or at least a covered story. -/
theorem tick_books (c : SharedSurroundings) (relay : Relay) (t : Table) :
    let ended := c.complete relay.tick.run (c.after { table := t } .elapsed)
    Program.Interruptible.outcome (fun _ s => s.Covered 0 0) (fun report s => s.Books report 0 0) ended.1
      ended.2.story := by
  let s := c.after (c.after { table := t } .elapsed) .now
  have hnew : s.story.Books {} 0 0 := ⟨⟨Nat.le_refl 0, Nat.le_refl 0⟩, rfl⟩
  exact (complete_abides (s := s) (fun _ => True) (tickAt_books relay c.claimTime hnew) trivial
    fun s action _ _ => ⟨c.modest_of_answer s action, trivial⟩).1

/-- At a table of one's own, what is published or dead was marked so, or was before. -/
theorem count_complete {α : Type} {status : Status} (hstatus : status.isTerminal) (env : Surroundings) (x : Program α)
    (s : Scene) :
    (env.alone.complete x s).2.table.count status + s.story.moved status =
      s.table.count status + (env.alone.complete x s).2.story.moved status := by
  induction x generalizing s with
  | done a => rfl
  | act action next ih =>
    have hafter : (env.alone.after s action).table.count status =
        s.table.count status + Exchange.moved status ⟨action, (env.alone.answer s action).1⟩ := by
      cases action with
      | ask request =>
        change (env.alone.answer s (.ask request)).2.count status = _
        obtain ⟨fault, hanswer⟩ | hanswer := env.alone.answer_ask s request
        · rw [hanswer]
          rfl
        · rw [hanswer]
          exact count_after hstatus s.table request
      | now | elapsed | note | deliver => rfl
    have hnext := ih (env.alone.answer s action).1 (env.alone.after s action)
    change _ + (s.story.moved status + Exchange.moved status ⟨action, (env.alone.answer s action).1⟩) = _ at hnext
    rw [hafter] at hnext
    change (env.alone.complete (next _) (env.alone.after s action)).2.table.count status + _ =
      _ + (env.alone.complete (next _) (env.alone.after s action)).2.story.moved status
    omega

end SharedSurroundings

namespace SharedSurroundings

/-- What is asked between two ticks leaves the totals. -/
theorem refreshed_story (c : SharedSurroundings) (s : Scene) :
    (c.refreshed s).story.totals = s.story.totals ∧
      (s.story.Covered 0 0 → (c.refreshed s).story.Covered 0 0) ∧
      ∀ m, ((c.refreshed s).story.metrics m).totals = (s.story.metrics m).totals := by
  have hidle (answer : Except Interrupt (List (Status × Int))) : Exchange.Idle ⟨.ask .counts, answer⟩ := by
    cases answer <;> exact ⟨rfl, rfl, rfl, rfl⟩
  rw [refreshed]
  split
  · exact ⟨Story.totals_cons_of_idle (hidle _) _, fun h => h.idle (hidle _), fun _ => rfl⟩
  · have hnote : Exchange.Idle ⟨.note (.rows s.table.counts), ()⟩ := ⟨rfl, rfl, rfl, rfl⟩
    refine ⟨?_, fun h => (h.idle (hidle _)).idle hnote, fun _ => rfl⟩
    exact (Story.totals_cons_of_idle hnote _).trans (Story.totals_cons_of_idle (hidle _) _)

end SharedSurroundings

/-! ### Turns -/

/-- A tick between two states: the rows that it claimed, and whether it came to a report. -/
structure Turn where
  before : State
  after : State
  claimed : List Row
  reported : Bool

/-- The rows of a status that a turn added. -/
def Turn.gained (turn : Turn) (s : Status) : Nat := turn.after.table.count s - turn.before.table.count s

def Turn.totals (turn : Turn) : Nat × Nat × Nat :=
  (turn.claimed.length, turn.gained .published, turn.gained .deadLettered)

namespace State

/-- Whether a tick came to a report. -/
def isReport : Except String (Option Report) → Bool
  | .ok (some _) => true
  | .ok none | .error _ => false

def turn (relay : Relay) (d : State) (c : SharedSurroundings) : Turn where
  before := d
  after := d.next relay c
  claimed := (d.tick relay c).2.story.claimed
  reported := isReport (d.tick relay c).1.1

/-- The turns of ticks in a row. -/
def turns (relay : Relay) : State → List SharedSurroundings → List Turn
  | _, [] => []
  | d, c :: rest => d.turn relay c :: (d.next relay c).turns relay rest

/-- The totals of a tick are counted if it comes to a report. -/
theorem tick_entered (relay : Relay) (d : State) (c : SharedSurroundings) :
    (d.tick relay c).2.story.Covered 0 0 ∧
      ∀ m : Metrics, ((d.tick relay c).2.story.metrics m).totals =
        m.totals + if isReport (d.tick relay c).1.1 then (d.tick relay c).2.story.totals else 0 := by
  have hbooks := c.tick_books relay (c.meddle [] d.table)
  have hsparing := (c.tick_sparing relay (c.meddle [] d.table)).1
  dsimp only at hbooks hsparing
  generalize hended : c.complete relay.tick.run (c.after { table := c.meddle [] d.table } .elapsed) = ended
    at hbooks hsparing
  obtain ⟨result, s⟩ := ended
  have hquiet (m : Metrics) : (s.story.metrics m).totals = m.totals := by
    obtain ⟨failed, durations, hm⟩ := hsparing.metrics_eq m
    rw [hm]
    rfl
  cases result with
  | ok report =>
    have hbooks : s.story.Books report 0 0 := hbooks
    obtain ⟨seconds, time, s', hstory, htick⟩ := tick_of_report hended
    obtain ⟨htotals, hcovered, hmetrics⟩ := c.refreshed_story s'
    rw [hstory] at htotals hcovered hmetrics
    have hall : (c.refreshed s').story.totals = report.totals := htotals.trans hbooks.totals_eq.symm
    rw [htick]
    refine ⟨hcovered ?_, fun m => ?_⟩
    · exact ((hbooks.toCovered.idle ⟨rfl, rfl, rfl, rfl⟩).idle ⟨rfl, rfl, rfl, rfl⟩).idle ⟨rfl, rfl, rfl, rfl⟩
    · rw [hmetrics]
      change (s.story.metrics m).totals + report.totals = m.totals + (c.refreshed s').story.totals
      rw [hquiet, hall]
  | error e =>
    have hbooks : s.story.Covered 0 0 := hbooks
    cases e with
    | fault fault =>
      obtain ⟨-, hcovered, hmetrics⟩ := c.refreshed_story (c.after s (.note .tickError))
      rw [tick_of_fault hended]
      refine ⟨hcovered (hbooks.idle ⟨rfl, rfl, rfl, rfl⟩), fun m => ?_⟩
      rw [hmetrics]
      exact hquiet m
    | crash text =>
      rw [tick_of_crash hended]
      exact ⟨hbooks, hquiet⟩

end State

/-- What turns one after the other come to between two states. -/
structure Spans (d : State) (turns : List Turn) (last : State) : Prop where
  totals : last.metrics.totals = d.metrics.totals + ((turns.filter Turn.reported).map Turn.totals).sum
  count : ∀ s : Status, s.isTerminal → last.table.count s = d.table.count s + (turns.map (·.gained s)).sum
  settled : (turns.map (·.gained .published)).sum + last.metrics.failures ≤
    d.metrics.failures + (turns.flatMap Turn.claimed).length
  buried : (turns.map (·.gained .deadLettered)).sum + d.metrics.failures ≤ last.metrics.failures
  idle : ∀ turn ∈ turns, turn.claimed = [] → turn.totals = 0

namespace Spans

variable {d d' last : State} {turns others : List Turn}

theorem nil (d : State) : Spans d [] d :=
  ⟨(add_zero _).symm, fun _ _ => rfl, Nat.le_of_eq (Nat.zero_add _), Nat.le_of_eq (Nat.zero_add _), nofun⟩

theorem append (h : Spans d turns d') (h' : Spans d' others last) : Spans d (turns ++ others) last where
  totals := by rw [h'.totals, h.totals, List.filter_append, List.map_append, List.sum_append, add_assoc]
  count s hs := by rw [h'.count s hs, h.count s hs, List.map_append, List.sum_append, Nat.add_assoc]
  settled := by
    have hfirst := h.settled
    have hothers := h'.settled
    rw [List.map_append, List.sum_append, List.flatMap_append, List.length_append]
    omega
  buried := by
    have hfirst := h.buried
    have hothers := h'.buried
    rw [List.map_append, List.sum_append]
    omega
  idle := List.forall_mem_append.2 ⟨h.idle, h'.idle⟩

end Spans

namespace State

/-- What is published or dead after a turn, and was not before, was marked so. -/
theorem count_next {s : Status} (hs : s.isTerminal) (relay : Relay) (d : State) (env : Surroundings) :
    (d.next relay env.alone).table.count s = d.table.count s + (d.tick relay env.alone).2.story.moved s :=
  SharedSurroundings.count_complete hs env (relay.runTick d.stats) { table := d.table }

theorem gained_turn {s : Status} (hs : s.isTerminal) (relay : Relay) (d : State) (env : Surroundings) :
    (d.turn relay env.alone).gained s = (d.tick relay env.alone).2.story.moved s := by
  change (d.next relay env.alone).table.count s - d.table.count s = _
  rw [count_next hs, Nat.add_sub_cancel_left]

theorem totals_turn (relay : Relay) (d : State) (env : Surroundings) :
    (d.turn relay env.alone).totals = (d.tick relay env.alone).2.story.totals := by
  rw [Turn.totals, gained_turn rfl, gained_turn rfl]
  rfl

/-- One turn: its totals are counted or not, its failures are. -/
theorem spans_turn (relay : Relay) (d : State) (env : Surroundings) :
    Spans d [d.turn relay env.alone] (d.next relay env.alone) := by
  obtain ⟨hcovered, htotals⟩ := tick_entered relay d env.alone
  have hfailures := (d.tick relay env.alone).2.story.failures_metrics d.metrics
  refine ⟨?_, fun s hs => ?_, ?_, ?_, List.forall_mem_singleton.2 fun hnone => ?_⟩
  · refine (htotals d.metrics).trans ?_
    rw [← totals_turn, List.filter_singleton]
    change _ + (if (d.turn relay env.alone).reported then _ else _) = _
    cases (d.turn relay env.alone).reported <;> simp
  · rw [List.map_singleton, List.sum_singleton, gained_turn hs, count_next hs]
  · have hsettled := hcovered.settled
    rw [List.map_singleton, List.sum_singleton, List.flatMap_singleton, gained_turn rfl]
    change _ + ((d.tick relay env.alone).2.story.metrics d.metrics).failures ≤
      _ + (d.tick relay env.alone).2.story.claimed.length
    omega
  · have hburied := hcovered.buried
    rw [List.map_singleton, List.sum_singleton, gained_turn rfl]
    change _ ≤ ((d.tick relay env.alone).2.story.metrics d.metrics).failures
    omega
  · have hsettled := hcovered.settled
    have hburied := hcovered.buried
    have hclaimed : (d.tick relay env.alone).2.story.claimed.length = 0 := congrArg List.length hnone
    rw [totals_turn, Story.totals, hclaimed]
    have hpublished : (d.tick relay env.alone).2.story.moved .published = 0 := by omega
    have hdead : (d.tick relay env.alone).2.story.moved .deadLettered = 0 := by omega
    rw [hpublished, hdead]
    rfl

theorem spans_turns (relay : Relay) (d : State) (envs : List Surroundings) :
    Spans d (d.turns relay (envs.map Surroundings.alone)) ((envs.map Surroundings.alone).foldl (next relay) d) := by
  induction envs generalizing d with
  | nil => exact .nil d
  | cons env rest ih => exact (spans_turn relay d env).append (ih (d.next relay env.alone))

end State

/-! ### Accounts -/

theorem Turn.sum_totals (turns : List Turn) :
    (turns.map totals).sum = ((turns.flatMap claimed).length, (turns.map (·.gained .published)).sum,
      (turns.map (·.gained .deadLettered)).sum) := by
  induction turns with
  | nil => rfl
  | cons turn rest ih =>
    rw [List.map_cons, List.sum_cons, ih, totals, List.flatMap_cons, List.length_append]
    rfl

/-- Turns that came to nothing add nothing. -/
theorem Turn.sum_totals_reported {turns : List Turn} (h : ∀ turn ∈ turns, turn.reported ∨ turn.totals = 0) :
    ((turns.filter reported).map totals).sum = (turns.map totals).sum := by
  induction turns with
  | nil => rfl
  | cons turn rest ih =>
    obtain ⟨hturn, hrest⟩ := List.forall_mem_cons.1 h
    rw [List.map_cons, List.sum_cons, ← ih hrest]
    by_cases hreported : turn.reported
    · rw [List.filter_cons_of_pos hreported, List.map_cons, List.sum_cons]
    · rw [List.filter_cons_of_neg hreported, hturn.resolve_left hreported, zero_add]

/-- The counters account for all that turns did at a table: each row that they claimed is counted, each that was marked
as published or dead, and none twice as published or failed. -/
structure Accounts (t : Table) (turns : List Turn) (last : State) : Prop where
  claimed : last.metrics.claimed = (turns.flatMap Turn.claimed).length
  published : last.table.count .published = t.count .published + last.metrics.published
  deadLettered : last.table.count .deadLettered = t.count .deadLettered + last.metrics.deadLettered
  covered : last.metrics.published + last.metrics.failures ≤ last.metrics.claimed

namespace State

/-- What counters tell of the rows of a table at which nobody else is, whatever the clocks show, whichever calls fail
and whatever the broker does. The totals are those of the turns that came to a report. All turns together published the
rows by which the table has more of them, and they published or failed no more than they claimed, failures being
counted of every turn. So if each turn that claimed rows came to a report, the counters account for all. -/
theorem counters_account (relay : Relay) (t : Table) (envs : List Surroundings) :
    let turns := turns relay { table := t } (envs.map Surroundings.alone)
    let last := (envs.map Surroundings.alone).foldl (next relay) { table := t }
    last.metrics.totals = ((turns.filter Turn.reported).map Turn.totals).sum ∧
    (∀ s : Status, s.isTerminal → last.table.count s = t.count s + (turns.map (·.gained s)).sum) ∧
    (turns.map (·.gained .published)).sum + last.metrics.failures ≤ (turns.flatMap Turn.claimed).length ∧
    (turns.map (·.gained .deadLettered)).sum ≤ last.metrics.failures ∧
    ((∀ turn ∈ turns, turn.claimed ≠ [] → turn.reported) → Accounts t turns last) := by
  intro turns last
  have hspans : Spans { table := t } turns last := spans_turns relay { table := t } envs
  have htotals : last.metrics.totals = ((turns.filter Turn.reported).map Turn.totals).sum :=
    hspans.totals.trans (zero_add _)
  have hsettled : (turns.map (·.gained .published)).sum + last.metrics.failures ≤ (turns.flatMap Turn.claimed).length :=
    Nat.le_trans hspans.settled (Nat.le_of_eq (Nat.zero_add _))
  refine ⟨htotals, hspans.count, hsettled, hspans.buried, fun hreported => ?_⟩
  have hall : ∀ turn ∈ turns, turn.reported ∨ turn.totals = 0 := fun turn hturn => by
    by_cases hnone : turn.claimed = []
    · exact .inr (hspans.idle turn hturn hnone)
    · exact .inl (hreported turn hturn hnone)
  rw [Turn.sum_totals_reported hall, Turn.sum_totals, Metrics.totals, Prod.mk.injEq, Prod.mk.injEq] at htotals
  obtain ⟨hclaimed, hpublished, hdead⟩ := htotals
  exact {
    claimed := hclaimed
    published := by rw [hspans.count .published rfl, hpublished]
    deadLettered := by rw [hspans.count .deadLettered rfl, hdead]
    covered := by rwa [hclaimed, hpublished] }

/-- An order, and a later one whose payload is not JSON. -/
def orders : Table :=
  let order (id : Int) (payload : Bytes) (created : Instant) : Event :=
    { id, aggregateType := "Order", aggregateId := "order-1", kind := "OrderPlaced", payload, createdAt := created }
  (({} : Table).saveAll [order 1 [123, 125] .epoch, order 2 [120] { nanos := 45000000000 }]).2

/-- A broker that takes everything, and a store that does not answer a mark as published. -/
def forgetful : Surroundings :=
  { nosy.toSurroundings with fault := fun _ request =>
      match request with
      | .markPublished _ _ => some (.database .poolTimedOut)
      | _ => none }

/-- After a tick that the store refused, an order is published, and a minute later the other is given up. -/
theorem orders_accounted :
    let later : Surroundings := { nosy.toSurroundings with now := fun _ => { nanos := 60000000000 } }
    let envs := [severed.toSurroundings, nosy.toSurroundings, later]
    let turns := turns prompt { table := orders } (envs.map Surroundings.alone)
    let last := (envs.map Surroundings.alone).foldl (next prompt) { table := orders }
    Accounts orders turns last ∧ last.metrics.totals = (2, 1, 1) ∧ last.metrics.failures = 1 := by
  intro later envs turns last
  obtain ⟨-, -, -, -, haccounts⟩ := counters_account prompt orders envs
  exact ⟨haccounts (by decide +kernel), by decide +kernel, by decide +kernel⟩

/-- The counters do not tell of rows that were claimed, or even published, in a turn that a fault of the store ended. -/
theorem forgotten_unaccounted :
    ¬∀ (relay : Relay) (t : Table) (envs : List Surroundings), (∀ env ∈ envs, env.Spares relay.graveyard.topic) →
      Accounts t (turns relay { table := t } (envs.map Surroundings.alone))
        ((envs.map Surroundings.alone).foldl (next relay) { table := t }) := by
  intro h
  have haccounts := h prompt .single [forgetful] (List.forall_mem_singleton.2 fun _ _ _ _ _ _ _ => nofun)
  exact absurd haccounts.claimed (by decide +kernel)

end State

end Relay

end Outbox
