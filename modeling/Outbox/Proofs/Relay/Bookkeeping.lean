import Mathlib.Algebra.GroupWithZero.Nat
import Mathlib.Algebra.Ring.Int.Defs
import Outbox.Proofs.Metrics.Labels
import Outbox.Proofs.Relay.Surroundings
import Outbox.Proofs.Relay.Custody
import Outbox.Proofs.Store.Lifecycle

/-! What a relay counts of itself. The report of a tick accounts for each row that it claimed. The totals that the
relay keeps and the metrics that it shows are counted on different paths, and agree after every tick, whatever the
store, the broker and others at the table do; and the gauges show the table as it was when it was last asked. -/

namespace Outbox

open Metrics (Ordered counted counted_increment)

namespace Relay

/-! ### Reports -/

namespace Report

/-- The rows of which an outcome is reported. -/
def settled (r : Report) : Nat := r.published + r.retried + r.deadLettered + r.skipped

theorem settled_delivered (claimed : Nat) {marked asked : Nat} (h : marked ≤ asked) :
    ({ claimed := claimed, published := marked, skipped := 0 + (asked - marked) } : Report).settled = asked := by
  simp only [settled]
  omega

theorem addRetry_settled (r : Report) (marked : Bool) :
    (r.addRetry marked).claimed = r.claimed ∧ (r.addRetry marked).settled = r.settled + 1 := by
  cases marked <;> exact ⟨rfl, by simp only [addRetry, settled, if_true, if_false, Bool.false_eq_true]; omega⟩

theorem addBurial_settled (r : Report) (burial : Burial) :
    (r.addBurial burial).claimed = r.claimed ∧ (r.addBurial burial).settled = r.settled + 1 := by
  cases burial <;> exact ⟨rfl, by simp only [addBurial, settled]; omega⟩

theorem outcome_cases (r : Report) : r.outcome = "idle" ∨ r.outcome = "ok" ∨ r.outcome = "partial" := by
  rw [outcome]
  split
  · exact .inl rfl
  · split
    · exact .inr (.inl rfl)
    · exact .inr (.inr rfl)

end Report

/-! ### What a tick counts -/

/-- The rule of a tick: what it counts are single publications, and it leaves the rows in each state alone. -/
def Sparing (_ : Story) : Action → Prop
  | .note (.publish _) | .note (.publishFailure _) => True
  | .note _ | .ask .counts => False
  | _ => True

variable {α : Type} {story : Story}

/-- A program keeps the rule, whatever it is answered, and a condition holds of its result. -/
abbrev Program.Spares (post : α → Story → Prop) (x : Program α) (story : Story) : Prop :=
  x.Abides (fun _ => True) Sparing post story

/-- The same for a program that may be interrupted, of whose interruption nothing is asked. -/
abbrev Program.Interruptible.Spares (post : α → Story → Prop) (x : Program.Interruptible α) (story : Story) : Prop :=
  x.Abides (fun _ => True) Sparing (fun _ _ => True) post story

theorem perform_spares (action : Action) (h : Sparing story action) :
    (Program.perform action).Spares (fun _ _ => True) story :=
  ⟨h, fun _ _ => trivial⟩

theorem ask_spares {request : Request} (h : Sparing story (.ask request)) :
    (Program.ask request).Spares (fun _ _ => True) story :=
  (Program.Interruptible.Abides.ask h fun _ _ => trivial).imp fun _ _ _ => trivial

theorem now_spares (story : Story) : (liftM Program.now : Program.Interruptible Instant).Spares (fun _ _ => True) story :=
  .lift (perform_spares .now trivial)

/-- The rule of a publisher: it delivers parcels and counts publications. -/
def Posts (_ : Story) : Action → Prop
  | .deliver _ _ _ | .note (.publish _) => True
  | _ => False

section Publishing

variable {possible : Exchange → Prop}

theorem noteAll_posts (seconds : Float) (n : Nat) (story : Story) :
    (Program.noteAll (List.replicate n (.publish seconds))).Abides possible Posts (fun _ _ => True) story := by
  induction n generalizing story with
  | zero => exact .pure trivial
  | succ n ih => exact .bind (.perform trivial) fun _ s _ => ih s

theorem publishChunk_posts (p : Publisher) (rows : List Row) (story : Story) :
    (p.publishChunk rows).Abides possible Posts (fun outcomes _ => outcomes.length = rows.length) story := by
  have hdeliver (story : Story) : (do
      let deliveries ← Program.deliver p.measured p.limit
        ((rows.map fun row => (row, p.parcel row)).filterMap Publisher.parcelOf?)
      return p.outcomes (rows.map fun row => (row, p.parcel row)) deliveries : Program _).Abides possible Posts
      (fun outcomes _ => outcomes.length = rows.length) story := by
    refine .bind (.perform trivial) fun deliveries s _ => .pure ?_
    have hrows := congrArg List.length (p.map_fst_outcomes (rows.map fun row => (row, p.parcel row)) deliveries)
    simpa only [List.length_map] using hrows
  rw [Publisher.publishChunk]
  split
  · exact .bind (noteAll_posts 0 _ story) fun _ s _ => hdeliver s
  · exact hdeliver story

theorem publishChunks_posts (p : Publisher) (chunks : List (List Row)) (story : Story) :
    (p.publishChunks chunks).Abides possible Posts (fun outcomes _ => outcomes.length = chunks.flatten.length)
      story := by
  induction chunks generalizing story with
  | nil => exact .pure rfl
  | cons chunk rest ih =>
    rw [Publisher.publishChunks]
    refine .bind (publishChunk_posts p chunk story) fun first s hfirst => .bind (ih s) fun others _ hothers => .pure ?_
    simp only [List.length_append, List.flatten_cons, hfirst, hothers]

theorem Batch.length_ofOutcomes (outcomes : List (Row × Option Failure)) :
    (Batch.ofOutcomes outcomes).delivered.length + (Batch.ofOutcomes outcomes).failed.length = outcomes.length := by
  simpa using (Batch.perm_ofOutcomes outcomes).length_eq

/-- Each row of a batch is delivered or fails, and nothing but deliveries is done about it. -/
theorem process_posts (p : Publisher) (rows : List Row) (story : Story) :
    (p.process rows).Abides possible Posts
      (fun batch _ => batch.delivered.length + batch.failed.length = rows.length) story := by
  refine .bind (publishChunks_posts p _ story) fun outcomes _ houtcomes => .pure ?_
  rw [flatten_chunks] at houtcomes
  exact (Batch.length_ofOutcomes outcomes).trans houtcomes

end Publishing

theorem Posts.sparing {action : Action} (h : Posts story action) : Sparing story action := by
  cases action with
  | note m =>
    cases m with
    | publish => trivial
    | tick | tickError | outcomes | publishFailure | rows | idGenerated | clockRegression => cases h
  | deliver => trivial
  | ask | now | elapsed => cases h

theorem process_spares (p : Publisher) (rows : List Row) (story : Story) :
    (p.process rows).Spares (fun batch _ => batch.delivered.length + batch.failed.length = rows.length) story :=
  (process_posts p rows story).widen fun _ _ => Posts.sparing

theorem recordDelivered_spares (ids : List Int) (claimed : Nat) (story : Story) :
    (recordDelivered ids { claimed := claimed }).Spares
      (fun report _ => report.claimed = claimed ∧ report.settled = ids.length) story := by
  rw [recordDelivered]
  split
  · next hempty =>
    rw [List.isEmpty_iff] at hempty
    subst hempty
    exact .pure ⟨rfl, rfl⟩
  · refine .bind (now_spares story) fun now s _ => .bind (ask_spares trivial) fun marked s₁ _ => ?_
    dsimp only
    split
    · have hthrow (e : Interrupt) (s : Story) : (throw e : Program.Interruptible Unit).Spares (fun _ _ => False) s := trivial
      exact .bind (hthrow _ _) fun _ _ h => h.elim
    · next hmore => exact .pure ⟨rfl, Report.settled_delivered claimed (Nat.le_of_not_lt hmore)⟩

theorem bury_spares (g : Graveyard) (failed : FailedRow) (delay : Span) (story : Story) :
    (g.bury failed delay).Spares (fun _ _ => True) story := by
  have hproblem (deliveries : List Delivery) (s : Story) :
      (liftM (g.problem (deliveries.headD .timedOut)) : Program.Interruptible (Option String)).Spares
        (fun _ _ => True) s := by
    refine .ofExcept ?_
    cases g.problem (deliveries.headD .timedOut) <;> trivial
  rw [Graveyard.bury]
  refine .bind (now_spares story) fun now s _ => ?_
  refine .bind (.lift (perform_spares (.deliver _ _ _) trivial)) fun deliveries s₁ _ => ?_
  refine .bind (hproblem deliveries s₁) fun problem s₂ _ => ?_
  split <;>
  exact .bind (now_spares s₂) fun time s₃ _ => .bind (ask_spares trivial) fun marked s₄ _ => .pure trivial

theorem recordFailed_spares (relay : Relay) (failed : FailedRow) (report : Report) (story : Story) :
    (relay.recordFailed failed report).Spares
      (fun report' _ => report'.claimed = report.claimed ∧ report'.settled = report.settled + 1) story := by
  rw [recordFailed]
  refine .bind (.lift (perform_spares (.note _) trivial)) fun _ s _ => ?_
  split
  · exact .bind (now_spares s) fun now s₁ _ => .bind (ask_spares trivial) fun marked s₂ _ =>
      .pure (report.addRetry_settled marked)
  · exact .bind (bury_spares relay.graveyard failed _ s) fun burial s₁ _ => .pure (report.addBurial_settled burial)

theorem recordAllFailed_spares (relay : Relay) (failures : List FailedRow) (report : Report) (story : Story) :
    (relay.recordAllFailed failures report).Spares
      (fun report' _ => report'.claimed = report.claimed ∧ report'.settled = report.settled + failures.length)
      story := by
  induction failures generalizing story report with
  | nil => exact .pure ⟨rfl, rfl⟩
  | cons failed rest ih =>
    rw [recordAllFailed]
    refine .bind (recordFailed_spares relay failed report story) fun report₁ s hfirst => ?_
    refine (ih report₁ s).imp fun report₂ _ hrest => ⟨hrest.1.trans hfirst.1, ?_⟩
    rw [hrest.2, hfirst.2, List.length_cons]
    omega

/-- A tick that comes to its end reports an outcome for each row that it claimed. -/
theorem tickAt_spares (relay : Relay) (now : Instant) (story : Story) :
    (relay.tickAt now).Spares (fun report _ => report.claimed = report.settled) story := by
  rw [tickAt_eq]
  refine .bind (ask_spares trivial) fun rows s _ => ?_
  rw [work]
  split
  · exact .pure rfl
  · refine .bind (.lift (process_spares relay.publisher rows s)) fun batch s₁ hbatch => ?_
    refine .bind (recordDelivered_spares batch.delivered rows.length s₁) fun report s₂ hdelivered => ?_
    refine (recordAllFailed_spares relay batch.failed report s₂).imp fun report' _ hfailed => ?_
    calc
      report'.claimed = rows.length := hfailed.1.trans hdelivered.1
      _ = report.settled + batch.failed.length := by rw [hdelivered.2, hbatch]
      _ = report'.settled := hfailed.2.symm

/-! ### What a story counts -/

/-- The metrics after an exchange. -/
def Exchange.count : Exchange → Metrics → Metrics
  | ⟨.note m, _⟩, metrics => metrics.record m
  | _, metrics => metrics

/-- The metrics after the exchanges of a story. -/
def Story.metrics (story : Story) (before : Metrics) : Metrics := story.foldr Exchange.count before

/-- Nothing was counted but single publications, and nobody asked for the rows in each state. -/
def Story.IsSparing (story : Story) : Prop := ∀ exchange ∈ story, Sparing [] exchange.1

/-- Such a story changes the failures and the durations of publications at most. -/
theorem Story.IsSparing.metrics_eq {story : Story} (h : story.IsSparing) (m : Metrics) :
    ∃ failed durations, story.metrics m = { m with failed := failed, publishDuration := durations } := by
  induction story with
  | nil => exact ⟨m.failed, m.publishDuration, rfl⟩
  | cons exchange earlier ih =>
    obtain ⟨hexchange, hearlier⟩ := List.forall_mem_cons.1 h
    obtain ⟨failed, durations, hm⟩ := ih hearlier
    change ∃ failed durations, exchange.count (Story.metrics earlier m) = _
    rw [hm]
    obtain ⟨action, answer⟩ := exchange
    cases action with
    | note measurement =>
      cases measurement with
      | publish | publishFailure => exact ⟨_, _, rfl⟩
      | tick | tickError | outcomes | rows | idGenerated | clockRegression => cases hexchange
    | ask | now | elapsed | deliver => exact ⟨failed, durations, rfl⟩

/-! ### Totals -/

/-- The totals of a relay are those that its metrics show. -/
structure Tallies (stats : Stats) (m : Metrics) : Prop where
  ordered : Ordered m.ticks
  ticks : stats.ticks =
    counted m.ticks "idle" + counted m.ticks "ok" + counted m.ticks "partial" + counted m.ticks "error"
  failedTicks : stats.failedTicks = m.tickErrors
  errors : m.tickErrors = counted m.ticks "error"
  claimed : stats.claimed = m.claimed
  published : stats.published = m.published
  deadLettered : stats.deadLettered = m.deadLettered

namespace Tallies

variable {stats : Stats} {m : Metrics}

theorem empty : Tallies {} {} := ⟨.nil, rfl, rfl, rfl, rfl, rfl, rfl⟩

/-- The totals of a tick that comes to its end. -/
theorem report (h : Tallies stats m) (report : Report) (seconds : Float) :
    Tallies ({ stats with ticks := stats.ticks + 1 }.add report)
      ((m.record (.outcomes report.claimed report.published report.deadLettered)).record
        (.tick report.outcome seconds)) where
  ordered := h.ordered.alter
  ticks := by
    have hticks := h.ticks
    rcases report.outcome_cases with houtcome | houtcome | houtcome <;>
    · simp [Metrics.record, Stats.add, counted_increment h.ordered, houtcome]
      omega
  failedTicks := h.failedTicks
  errors := by
    have herrors := h.errors
    rcases report.outcome_cases with houtcome | houtcome | houtcome <;>
    simpa [Metrics.record, counted_increment h.ordered, houtcome]
  claimed := by simp only [Metrics.record, Stats.add, h.claimed]
  published := by simp only [Metrics.record, Stats.add, h.published]
  deadLettered := by simp only [Metrics.record, Stats.add, h.deadLettered]

/-- The totals of a tick that a fault ends. -/
theorem fault (h : Tallies stats m) :
    Tallies { stats with ticks := stats.ticks + 1, failedTicks := stats.failedTicks + 1 } (m.record .tickError) where
  ordered := h.ordered.alter
  ticks := by
    have hticks := h.ticks
    simp [Metrics.record, counted_increment h.ordered]
    omega
  failedTicks := congrArg (· + 1) h.failedTicks
  errors := by
    have herrors := h.errors
    simpa [Metrics.record, counted_increment h.ordered]
  claimed := h.claimed
  published := h.published
  deadLettered := h.deadLettered

/-- What is not counted leaves the totals as they are. -/
theorem sparing {story : Story} (h : Tallies stats m) (hstory : story.IsSparing) : Tallies stats (story.metrics m) := by
  obtain ⟨failed, durations, hm⟩ := hstory.metrics_eq m
  rw [hm]
  exact ⟨h.ordered, h.ticks, h.failedTicks, h.errors, h.claimed, h.published, h.deadLettered⟩

end Tallies

/-! ### Gauges -/

/-- A number that is left out for being zero counts as zero all the same. -/
theorem lookup_filter_ne_zero (number : Status → Int) {states : List Status} {s : Status} (hs : s ∈ states)
    (hnodup : states.Nodup) :
    (((states.map fun s => (s, number s)).filter fun (_, n) => n != 0).lookup s).getD 0 = number s := by
  induction states with
  | nil => cases hs
  | cons first rest ih =>
    obtain ⟨hfirst, hrest⟩ := List.nodup_cons.1 hnodup
    rw [List.map_cons, List.filter_cons]
    dsimp only
    rcases List.mem_cons.1 hs with rfl | hmore
    · have hnone : ((rest.map fun s => (s, number s)).filter fun (_, n) => n != 0).lookup s = none := by
        refine List.lookup_eq_none_iff.2 fun entry hentry => bne_iff_ne.2 ?_
        obtain ⟨other, hother, rfl⟩ := List.mem_map.1 (List.mem_filter.1 hentry).1
        exact fun heq => hfirst (heq ▸ hother)
      split
      · rw [List.lookup_cons_self, Option.getD_some]
      · next hzero =>
        have hnumber : number s = 0 := by simpa only [bne_iff_ne, not_not] using hzero
        rw [hnone, hnumber, Option.getD_none]
    · have hne : (s == first) = false := beq_false_of_ne fun heq => hfirst (heq ▸ hmore)
      split
      · rw [List.lookup_cons, hne]
        exact ih hmore hrest
      · exact ih hmore hrest

theorem lookup_counts (t : Table) (s : Status) : (t.counts.lookup s).getD 0 = t.count s :=
  lookup_filter_ne_zero (fun s => (t.count s : Int)) (by cases s <;> decide) (by decide)

theorem name_injective : Function.Injective Status.name := by
  intro a b
  cases a <;> cases b <;> decide

theorem lookup_foldl_alter (number : Status → Int) (states : List Status) (rows : Metrics.Labelled Int) (s : Status) :
    (states.foldl (fun rows s => Metrics.alter s.name 0 (fun _ => number s) rows) rows).lookup s.name =
      if s ∈ states then some (number s) else rows.lookup s.name := by
  induction states generalizing rows with
  | nil => rfl
  | cons first rest ih =>
    rw [List.foldl_cons, ih]
    by_cases hrest : s ∈ rest
    · rw [if_pos hrest, if_pos (List.mem_cons_of_mem _ hrest)]
    · rw [if_neg hrest]
      by_cases hfirst : s = first
      · subst hfirst
        rw [Metrics.lookup_alter_const, if_pos List.mem_cons_self]
      · rw [Metrics.lookup_alter_of_ne (mt (@name_injective s first) hfirst),
          if_neg (List.not_mem_cons_of_ne_of_not_mem hfirst hrest)]

/-- The gauge of a state shows what was last counted for it, whatever it showed before. -/
theorem lookup_record_rows (m : Metrics) (counts : List (Status × Int)) (s : Status) :
    (m.record (.rows counts)).rows.lookup s.name = some ((counts.lookup s).getD 0) := by
  rw [Metrics.record, lookup_foldl_alter, if_pos (by cases s <;> decide)]

/-! ### One tick -/

/-- The time as of which a tick claims: the first reading of the wall clock. -/
def Surroundings.claimTime (env : Surroundings) : Instant := env.now [⟨.elapsed, env.elapsed []⟩]

namespace SharedSurroundings

variable {c : SharedSurroundings} {relay : Relay}

/-- Surroundings in which nothing breaks a tick of a relay off. -/
structure Calm (relay : Relay) (c : SharedSurroundings) : Prop where
  spares : c.toSurroundings.Spares relay.graveyard.topic
  dated : (c.claimTime.minus? relay.config.stuck).isSome

theorem credible_answer (c : SharedSurroundings) (s : Scene) (action : Action) :
    Credible ⟨action, (c.answer s action).1⟩ := by
  cases action with
  | ask request =>
    obtain ⟨fault, hanswer⟩ | hanswer := c.answer_ask s request
    · rw [hanswer]
      exact credible_error request _
    · rw [hanswer]
      exact Relay.credible_answer s.table request
  | now | elapsed | note | deliver => trivial

theorem exists_rule_of_mem {story : Story} {measured : Bool} {limit : Span} {parcels : List Parcel} {parcel : Parcel}
    {delivery : Delivery} (h : (parcel, delivery) ∈ parcels.zip (c.deliver story measured limit parcels)) :
    ∃ place, parcels[place]? = some parcel ∧
      (delivery = (c.treat story parcels place).ending.delivery ∨ delivery = .timedOut) := by
  obtain ⟨place, hplace⟩ := List.mem_iff_getElem?.1 h
  obtain ⟨hparcel, hdelivery⟩ := List.getElem?_zip_eq_some.1 hplace
  dsimp only at hparcel hdelivery
  refine ⟨place, hparcel, ?_⟩
  rw [Surroundings.deliver, List.getElem?_mapIdx, hparcel, Option.map_some, Option.some.injEq,
    Simulation.Flight.delivery_depart] at hdelivery
  rw [← hdelivery]
  split
  · exact .inl rfl
  · exact .inr rfl

/-- Nothing that calm surroundings answer raises an alarm, if a claim is as of the time of the tick. -/
theorem Calm.no_alarm (h : c.Calm relay) {s : Scene} {action : Action}
    (hproper : relay.Proper (fun _ time => time = c.claimTime) s.story action) (text : String) :
    ¬relay.Alarm ⟨action, (c.answer s action).1⟩ (.crash text) := by
  intro halarm
  generalize hanswer : (c.answer s action).1 = answer at halarm
  cases halarm with
  | @unanswered request =>
    obtain ⟨fault, hask⟩ | hask := c.answer_ask s request
    · rw [hask] at hanswer
      cases hanswer
    · rw [hask] at hanswer
      cases request with
      | claim p limit now stuck =>
        obtain ⟨⟨-, -, rfl⟩, rfl, -⟩ := hproper
        obtain ⟨⟨rows, t'⟩, hclaim⟩ := Option.isSome_iff_exists.1 (s.table.claim_isSome h.dated p limit)
        rw [Table.answer_claim hclaim] at hanswer
        cases hanswer
      | save | markPublished | markFailed | markDead | counts => cases hanswer
  | @overcounted ids now count hmore =>
    obtain ⟨fault, hask⟩ | hask := c.answer_ask s (.markPublished ids now)
    · rw [hask] at hanswer
      cases hanswer
    · rw [hask] at hanswer
      cases hanswer
      exact absurd (s.table.fst_markPublished_le now ids) (Nat.not_le_of_lt hmore)
  | @crashed measured limit parcels deliveries parcel _ hmem htopic =>
    subst hanswer
    obtain ⟨place, hparcel, hrule | hcut⟩ := exists_rule_of_mem hmem
    · have hspares := h.spares s.story parcels place parcel text hparcel htopic
      generalize (c.treat s.story parcels place).ending = ending at hrule hspares
      cases ending with
      | accept | refuse => cases hrule
      | crash => cases hrule; exact hspares rfl
    · cases hcut

/-- A tick leaves the totals to be counted, and its report accounts for all its rows. -/
theorem tick_sparing (c : SharedSurroundings) (relay : Relay) (t : Table) :
    let ended := c.complete relay.tick.run (c.after { table := t } .elapsed)
    ended.2.story.IsSparing ∧ ∀ report, ended.1 = .ok report → report.claimed = report.settled := by
  let s := c.after (c.after { table := t } .elapsed) .now
  have hstart : Story.IsSparing s.story := List.forall_mem_cons.2 ⟨trivial, List.forall_mem_singleton.2 trivial⟩
  obtain ⟨hreport, hsparing⟩ := complete_abides (s := s) Story.IsSparing (tickAt_spares relay c.claimTime s.story) hstart
    fun s action hs haction => ⟨trivial, List.forall_mem_cons.2 ⟨haction, hs⟩⟩
  refine ⟨hsparing, fun report hended => ?_⟩
  change (c.complete (relay.tickAt c.claimTime).run s).1 = .ok report at hended
  rw [hended] at hreport
  exact hreport

/-- A tick in calm surroundings ends with a report that accounts for all its rows, or with a fault; and it leaves the
totals to be counted. -/
theorem Calm.tick (h : c.Calm relay) (t : Table) :
    let ended := c.complete relay.tick.run (c.after { table := t } .elapsed)
    ((∃ report, ended.1 = .ok report ∧ report.claimed = report.settled) ∨ ∃ fault, ended.1 = .error (.fault fault)) ∧
      ended.2.story.IsSparing := by
  intro ended
  let s := c.after (c.after { table := t } .elapsed) .now
  have hended : ended = c.complete (relay.tickAt c.claimTime).run s := rfl
  have hnew : Story.Onward [] [] 0 0 s.story :=
    (Story.Onward.cons ⟨.now, c.claimTime⟩ rfl id).after (.cons ⟨.elapsed, c.elapsed []⟩ rfl id)
  obtain ⟨hsparing, hreport⟩ := c.tick_sparing relay t
  have hticks (hnew : Story.Onward [] [] 0 0 s.story) : (relay.tickAt c.claimTime).Abides Credible
      (relay.Proper fun _ time => time = c.claimTime) relay.Alarmed
      (fun report s => s.Unbroken ∧ report.skipped = s.missed) s.story := tickAt_abides hnew rfl
  obtain ⟨halarmed, hcalm⟩ := complete_abides (s := s)
    (fun story => ∀ exchange ∈ story, ∀ text, ¬relay.Alarm exchange (.crash text))
    (hticks hnew)
    (List.forall_mem_cons.2 ⟨fun _ => nofun, List.forall_mem_singleton.2 fun _ => nofun⟩)
    fun s action hs hproper => ⟨c.credible_answer s action, List.forall_mem_cons.2 ⟨h.no_alarm hproper, hs⟩⟩
  rw [← hended] at halarmed hcalm
  refine ⟨?_, hsparing⟩
  cases hresult : ended.1 with
  | ok report => exact .inl ⟨report, rfl, hreport report hresult⟩
  | error e =>
    cases e with
    | fault fault => exact .inr ⟨fault, rfl⟩
    | crash text =>
      rw [hresult] at halarmed
      obtain ⟨exchange, hexchange, halarm⟩ := halarmed
      exact absurd halarm (hcalm exchange hexchange text)

/-- The scene after the rows in each state were asked for. -/
def refreshed (c : SharedSurroundings) (s : Scene) : Scene :=
  match c.fault s.story .counts with
  | some fault => ⟨s.table, ⟨.ask .counts, .error (.fault fault)⟩ :: s.story⟩
  | none => ⟨s.table, ⟨.note (.rows s.table.counts), ()⟩ :: ⟨.ask .counts, .ok s.table.counts⟩ :: s.story⟩

theorem mem_refreshed {s : Scene} (h : c.fault s.story .counts = none) :
    ⟨.ask .counts, .ok s.table.counts⟩ ∈ (c.refreshed s).story := by
  rw [refreshed, h]
  exact .tail _ (.head _)

theorem complete_refreshCounts (c : SharedSurroundings) (s : Scene) :
    c.complete refreshCounts s = (.ok (), c.refreshed s) := by
  have hanswer : c.answer s (.ask .counts) = match c.fault s.story .counts with
      | some fault => (.error (.fault fault), s.table)
      | none => (.ok s.table.counts, s.table) := rfl
  rw [refreshCounts, complete_bind]
  change c.complete (match (c.answer s (.ask .counts)).1 with
    | .ok counts => _ | .error (.fault _) => _ | .error (.crash text) => _) (c.after s (.ask .counts)) = _
  rw [refreshed, after, hanswer]
  cases c.fault s.story .counts <;> rfl

end SharedSurroundings

/-! ### Ticks in a row -/

/-- A relay between two ticks: the table, the totals that it keeps and the metrics that it shows. -/
structure State where
  table : Table
  stats : Stats := {}
  metrics : Metrics := {}

namespace State

/-- A counted tick, with what it came to and the scene that it leaves. The others have been at the table before. -/
def tick (relay : Relay) (d : State) (c : SharedSurroundings) : (Except String (Option Report) × Stats) × Scene :=
  c.complete (relay.runTick d.stats) { table := c.meddle [] d.table }

def next (relay : Relay) (d : State) (c : SharedSurroundings) : State :=
  ⟨(d.tick relay c).2.table, (d.tick relay c).1.2, (d.tick relay c).2.story.metrics d.metrics⟩

variable {relay : Relay} {d : State} {c : SharedSurroundings}

/-- The scene in which the tick of a relay begins, once it has been looked at the time. -/
def start (d : State) (c : SharedSurroundings) : Scene := c.after { table := c.meddle [] d.table } .elapsed

theorem tick_of_report {report : Report} {s : Scene} (h : c.complete relay.tick.run (d.start c) = (.ok report, s)) :
    ∃ seconds time s',
      s'.story = ⟨.note (.tick report.outcome seconds), ()⟩ :: ⟨.elapsed, time⟩ ::
        ⟨.note (.outcomes report.claimed report.published report.deadLettered), ()⟩ :: s.story ∧
      d.tick relay c = ((.ok (some report), { d.stats with ticks := d.stats.ticks + 1 }.add report), c.refreshed s') := by
  let counted := c.after s (.note (.outcomes report.claimed report.published report.deadLettered))
  let seconds := secondsOf (c.elapsed counted.story - c.elapsed [])
  refine ⟨seconds, _, c.after (c.after counted .elapsed) (.note (.tick report.outcome seconds)), rfl, ?_⟩
  rw [tick, runTick, SharedSurroundings.complete_bind]
  refine (SharedSurroundings.complete_bind_of h _).trans ?_
  exact SharedSurroundings.complete_bind_of (c.complete_refreshCounts _) _

theorem tick_of_fault {fault : StoreFault} {s : Scene}
    (h : c.complete relay.tick.run (d.start c) = (.error (.fault fault), s)) :
    d.tick relay c =
      ((.ok none, { d.stats with ticks := d.stats.ticks + 1, failedTicks := d.stats.failedTicks + 1 }),
        c.refreshed (c.after s (.note .tickError))) := by
  rw [tick, runTick, SharedSurroundings.complete_bind]
  refine (SharedSurroundings.complete_bind_of h _).trans ?_
  exact SharedSurroundings.complete_bind_of (c.complete_refreshCounts _) _

theorem tick_of_crash {text : String} {s : Scene}
    (h : c.complete relay.tick.run (d.start c) = (.error (.crash text), s)) :
    d.tick relay c = ((.error text, { d.stats with ticks := d.stats.ticks + 1 }), s) := by
  rw [tick, runTick, SharedSurroundings.complete_bind]
  exact SharedSurroundings.complete_bind_of h _

/-- A tick in calm surroundings is answered, and its totals are counted before the rows in each state are asked for. -/
theorem tick_counts (h : c.Calm relay) (d : State) :
    ∃ s : Scene, (d.tick relay c).2 = c.refreshed s ∧ (∀ counts, ⟨.ask .counts, .ok counts⟩ ∉ s.story) ∧
      (∃ answer, (d.tick relay c).1.1 = .ok answer ∧ ∀ report ∈ answer, report.claimed = report.settled) ∧
      ∀ m, Tallies d.stats m → Tallies (d.tick relay c).1.2 (s.story.metrics m) := by
  obtain ⟨hresult, hsparing⟩ := h.tick (c.meddle [] d.table)
  generalize hended : c.complete relay.tick.run (c.after { table := c.meddle [] d.table } .elapsed) = ended
    at hresult hsparing
  obtain ⟨result, s⟩ := ended
  obtain ⟨report, hreport, hsettled⟩ | ⟨fault, hfault⟩ := hresult
  · obtain rfl : result = .ok report := hreport
    obtain ⟨seconds, time, s', hstory, htick⟩ := tick_of_report hended
    rw [htick]
    refine ⟨s', rfl, fun counts hcounts => ?_, ⟨some report, rfl, ?_⟩, fun m hm => ?_⟩
    · rw [hstory] at hcounts
      rcases hcounts with _ | ⟨_, _ | ⟨_, _ | ⟨_, hcounts⟩⟩⟩
      exact hsparing _ hcounts
    · rintro _ ⟨⟩
      exact hsettled
    · have hmetrics : s'.story.metrics m = ((s.story.metrics m).record
          (.outcomes report.claimed report.published report.deadLettered)).record (.tick report.outcome seconds) := by
        rw [hstory]
        rfl
      rw [hmetrics]
      exact (hm.sparing hsparing).report report seconds
  · obtain rfl : result = .error (.fault fault) := hfault
    rw [tick_of_fault hended]
    refine ⟨_, rfl, fun counts hcounts => ?_, ⟨none, rfl, nofun⟩, fun m hm => (hm.sparing hsparing).fault⟩
    rcases hcounts with _ | ⟨_, hcounts⟩
    exact hsparing _ hcounts

theorem tallies_next (h : c.Calm relay) (hd : Tallies d.stats d.metrics) :
    Tallies (d.next relay c).stats (d.next relay c).metrics := by
  obtain ⟨s, hended, -, -, htallies⟩ := tick_counts h d
  have hm := htallies d.metrics hd
  rw [next, hended, SharedSurroundings.refreshed]
  dsimp only
  split
  · exact hm
  · -- The gauges are no totals.
    exact ⟨hm.ordered, hm.ticks, hm.failedTicks, hm.errors, hm.claimed, hm.published, hm.deadLettered⟩

/-- The totals that a relay keeps are those of its metrics, after any number of ticks in calm surroundings. -/
theorem tallies_run {cs : List SharedSurroundings} (h : ∀ c ∈ cs, c.Calm relay) (hd : Tallies d.stats d.metrics) :
    let last := cs.foldl (next relay) d
    Tallies last.stats last.metrics := by
  induction cs generalizing d with
  | nil => exact hd
  | cons c rest ih =>
    obtain ⟨hc, hrest⟩ := List.forall_mem_cons.1 h
    exact ih hrest (tallies_next hc hd)

/-- Once the rows in each state were asked for with success, the gauges show the table. -/
theorem gauges_next (h : c.Calm relay) {counts : List (Status × Int)}
    (hcounts : ⟨.ask .counts, .ok counts⟩ ∈ (d.tick relay c).2.story) (s : Status) :
    (d.next relay c).metrics.rows.lookup s.name = some ((d.next relay c).table.count s : Int) := by
  obtain ⟨ended, hended, hnone, -, -⟩ := tick_counts h d
  rw [next]
  rw [hended] at hcounts ⊢
  rw [SharedSurroundings.refreshed] at hcounts ⊢
  split at hcounts
  · rcases hcounts with _ | ⟨_, hcounts⟩
    exact absurd hcounts (hnone counts)
  · exact (lookup_record_rows _ _ s).trans (congrArg some (lookup_counts _ s))

/-- Whatever the store, the broker and others at the table do: after each of any number of ticks, its report accounts
for all rows that it claimed, the totals that the relay keeps are those that its metrics show, and if the tick got to
know the rows in each state then the gauges show the table. -/
theorem books_balance (relay : Relay) (t : Table) (before : List SharedSurroundings) (c : SharedSurroundings)
    (hcalm : ∀ other ∈ c :: before, other.Calm relay) :
    let d := before.foldl (next relay) { table := t }
    let d' := d.next relay c
    let gauge (s : Status) : Option Int := d'.metrics.rows.lookup s.name
    (∃ answer, (d.tick relay c).1.1 = .ok answer ∧ ∀ report ∈ answer,
      report.claimed = report.published + report.retried + report.deadLettered + report.skipped) ∧
    d'.stats.ticks = counted d'.metrics.ticks "idle" + counted d'.metrics.ticks "ok" +
      counted d'.metrics.ticks "partial" + counted d'.metrics.ticks "error" ∧
    d'.stats.failedTicks = d'.metrics.tickErrors ∧ d'.metrics.tickErrors = counted d'.metrics.ticks "error" ∧
    d'.stats.claimed = d'.metrics.claimed ∧ d'.stats.published = d'.metrics.published ∧
    d'.stats.deadLettered = d'.metrics.deadLettered ∧
    ((∃ counts, ⟨.ask .counts, .ok counts⟩ ∈ (d.tick relay c).2.story) →
      (∀ s, gauge s = some (d'.table.count s : Int)) ∧
      (Status.all.map fun s => (gauge s).getD 0).sum = d'.table.size) := by
  intro d d' gauge
  obtain ⟨hc, hbefore⟩ := List.forall_mem_cons.1 hcalm
  obtain ⟨-, -, -, hreport, -⟩ := tick_counts hc d
  have htallies : Tallies d'.stats d'.metrics := tallies_next hc (tallies_run hbefore .empty)
  refine ⟨hreport, htallies.ticks, htallies.failedTicks, htallies.errors, htallies.claimed, htallies.published,
    htallies.deadLettered, fun ⟨counts, hcounts⟩ => ?_⟩
  have hgauge (s : Status) : gauge s = some (d'.table.count s : Int) := gauges_next hc hcounts s
  refine ⟨hgauge, ?_⟩
  simp only [Status.all, List.map_cons, List.map_nil, hgauge, Option.getD_some, List.sum_cons, List.sum_nil,
    Table.size_eq_counts]
  omega

/-- A relay with three parcels under way at a time. -/
def prompt : Relay := { publisher := { chunk := 3, limit := .ofSeconds 1 }, graveyard := { limit := .ofSeconds 1 } }

/-- A broker that takes everything and marks the first row as published behind the back of the relay. -/
def nosy : SharedSurroundings where
  now _ := .epoch
  elapsed _ := 0
  fault _ _ := none
  treat _ _ _ := {}
  meddle story t := if story.isEmpty then t else (t.markPublished .epoch [1]).2

/-- The same broker with a store that does not answer. -/
def severed : SharedSurroundings := { nosy with fault := fun _ _ => some (.database .poolClosed) }

theorem calm_of_accepts {c : SharedSurroundings} (htreat : ∀ story parcels place, c.treat story parcels place = {})
    (htime : c.claimTime = .epoch) : c.Calm prompt := by
  refine ⟨fun story parcels place parcel text _ _ => ?_, by rw [htime]; decide⟩
  rw [htreat]
  exact nofun

/-- After a tick that the store refused, a row is claimed that the broker then marks itself. -/
theorem nosy_books_balance :
    let event : Event := {
      id := 1, aggregateType := "Order", aggregateId := "order-1", kind := "OrderPlaced", payload := [123, 125]
      createdAt := .epoch }
    let d := State.next prompt { table := (({} : Table).save event).2 } severed
    let d' := d.next prompt nosy
    (d.tick prompt nosy).1.1 = .ok (some { claimed := 1, skipped := 1 }) ∧
    d'.stats.ticks = 2 ∧ counted d'.metrics.ticks "error" = 1 ∧ d'.metrics.claimed = 1 ∧
    d'.metrics.published = d'.stats.published ∧ d'.metrics.rows.lookup "PUBLISHED" = some 1 ∧
    (Status.all.map fun s => (d'.metrics.rows.lookup s.name).getD 0).sum = 1 := by
  intro event d d'
  have hcalm : ∀ c ∈ [nosy, severed], c.Calm prompt := by
    intro c hc
    rcases List.mem_cons.1 hc with rfl | hc
    · exact calm_of_accepts (fun _ _ _ => rfl) rfl
    · rw [List.mem_singleton.1 hc]
      exact calm_of_accepts (fun _ _ _ => rfl) rfl
  obtain ⟨-, -, -, -, -, hpublished, -, hgauges⟩ := books_balance prompt (({} : Table).save event).2 [severed] nosy hcalm
  have hcounts : ∃ counts, ⟨.ask .counts, .ok counts⟩ ∈ (d.tick prompt nosy).2.story := by
    obtain ⟨s, hended, -⟩ := tick_counts (hcalm nosy List.mem_cons_self) d
    rw [hended]
    exact ⟨_, SharedSurroundings.mem_refreshed rfl⟩
  obtain ⟨hshown, hsum⟩ := hgauges hcounts
  refine ⟨by decide +kernel, by decide +kernel, by decide +kernel, by decide +kernel, hpublished.symm, ?_, ?_⟩
  · refine (hshown .published).trans ?_
    decide +kernel
  · refine hsum.trans ?_
    decide +kernel

end State

end Relay

end Outbox
