import Outbox.Proofs.Relay.Endings
import Outbox.Proofs.Relay.Ledger

/-! The times that a tick writes into its rows. Published rows are stamped with the end of the last chunk. The failed
ones are stamped one after the other from then on, each when its dead letter is through if it has one, so that no stamp
lies before the failure that it records; and a row that is to be tried again waits for its whole delay from the
stamp. -/

namespace Outbox

/-- A table with a row in place of the one of its id. -/
structure Table.Replaced (t : Table) (final : Row) (t' : Table) : Prop where
  found : t'.find? final.id = some final
  others : ∀ id, id ≠ final.id → t'.find? id = t.find? id

namespace Relay

open Simulation (Flight World tableBackend)

variable {relay : Relay} {base : Instant}

/-! ### Entries -/

/-- A ride that failed, with what was recorded of it: from when on, the flights of its dead letters, and how its row
was left by a mark once they were through. -/
structure Entry (relay : Relay) (base : Instant) where
  ride : Ride relay.publisher
  failure : Failure
  failed : ride.failure = some failure
  start : Nat
  letters : List Flight
  left : ∀ f ∈ letters, f.LeftAt relay.graveyard.limit start
  final : Row
  settled : Settled relay ride.row (base.later (latest start (letters.map Flight.finish))) ride.posts
    (letters.map postOf) final

theorem Settled.stamped {row final : Row} {time : Instant} {posts letters : List (Parcel × Delivery)}
    (h : Settled relay row time posts letters final) :
    final.id = row.id ∧ final.updatedAt = time ∧
      (final.status = .failed → final.nextRetryAt = time.after (relay.policy.delayAfter row.attempt)) := by
  cases h with
  | published => exact ⟨rfl, rfl, nofun⟩
  | retried | kept => exact ⟨rfl, rfl, fun _ => rfl⟩
  | deadLettered => exact ⟨rfl, rfl, nofun⟩

namespace Entry

/-- When the row was marked. -/
def stamp (entry : Entry relay base) : Nat := latest entry.start (entry.letters.map Flight.finish)

theorem start_le_stamp (entry : Entry relay base) : entry.start ≤ entry.stamp := le_latest _ _

theorem finish_le_stamp (entry : Entry relay base) {f : Flight} (h : f ∈ entry.letters) : f.finish ≤ entry.stamp :=
  le_latest_of_mem (List.mem_map_of_mem h)

theorem id_final (entry : Entry relay base) : entry.final.id = entry.ride.row.id := entry.settled.stamped.1

theorem updatedAt_final (entry : Entry relay base) : entry.final.updatedAt = base.later entry.stamp :=
  entry.settled.stamped.2.1

theorem nextRetryAt_final (entry : Entry relay base) (h : entry.final.status = .failed) :
    entry.final.nextRetryAt =
      entry.final.updatedAt.after (relay.policy.backoff (max entry.ride.row.attempt 1).toNat) := by
  rw [entry.updatedAt_final]
  exact entry.settled.stamped.2.2 h

end Entry

/-- Entries one after the other from a time to another: each starts when the one before is marked. -/
inductive Entries (relay : Relay) (base : Instant) : Nat → List (Entry relay base) → Nat → Prop
  | nil (time : Nat) : Entries relay base time [] time
  | cons {finish : Nat} (entry : Entry relay base) {later : List (Entry relay base)}
    (hlater : Entries relay base entry.stamp later finish) : Entries relay base entry.start (entry :: later) finish

namespace Entries

variable {time finish : Nat} {entries : List (Entry relay base)}

theorem bounds (h : Entries relay base time entries finish) :
    time ≤ finish ∧ ∀ entry ∈ entries, time ≤ entry.start ∧ entry.stamp ≤ finish := by
  induction h with
  | nil => exact ⟨Nat.le_refl _, List.forall_mem_nil _⟩
  | cons entry hlater ih =>
    have hfirst := entry.start_le_stamp
    refine ⟨Nat.le_trans hfirst ih.1, List.forall_mem_cons.2 ⟨⟨Nat.le_refl _, ih.1⟩, fun other hother => ?_⟩⟩
    exact ⟨Nat.le_trans hfirst (ih.2 other hother).1, (ih.2 other hother).2⟩

theorem pairwise (h : Entries relay base time entries finish) : entries.Pairwise fun e e' => e.stamp ≤ e'.stamp := by
  induction h with
  | nil => exact .nil
  | cons entry hlater ih =>
    exact .cons (fun other hother => Nat.le_trans (hlater.bounds.2 other hother).1 other.start_le_stamp) ih

end Entries

/-! ### Recording failures -/

section

variable {w : World Table} {t : Table} {time : Nat}

/-- A mark of a row that is being sent replaces it. -/
theorem mark_ends (h : w.At base relay.graveyard.topic time t) {row : Row} (hrow : t.find? row.id = some row)
    (hsending : row.status = .sending) {request : Request} (hmark : request.isMark) (f : Row → Row)
    (keeps : ∀ r, (f r).id = r.id) {a : request.Answer}
    (hanswer : t.answer request = (.ok a, (t.settle row.id f keeps).2)) :
    w.Ends tableBackend (Program.ask request) fun _ flights w' => flights = [] ∧
      ∃ t', t.Replaced (f row) t' ∧ w'.At base relay.graveyard.topic time t' := by
  obtain ⟨-, hfound, hothers⟩ := Table.settle_of_sending hrow hsending f keeps
  have hreplaced : t.Replaced (f row) (t.settle row.id f keeps).2 :=
    ⟨by rw [keeps, hfound], fun id hid => hothers id (by rwa [keeps] at hid)⟩
  refine (h.ask (.inl hmark) hanswer).imp ?_
  rintro _ _ w' ⟨-, rfl, h'⟩
  exact ⟨rfl, _, hreplaced, h'⟩

theorem markFailed_ends (h : w.At base relay.graveyard.topic time t) {row : Row} (hrow : t.find? row.id = some row)
    (hsending : row.status = .sending) (cause : String) (delay : Span) (now : Instant) :
    w.Ends tableBackend (Program.ask (.markFailed row.id cause delay now)) fun _ flights w' => flights = [] ∧
      ∃ t', t.Replaced (row.failed cause delay now) t' ∧ w'.At base relay.graveyard.topic time t' :=
  mark_ends h hrow hsending rfl (·.failed cause delay now) (·.id_failed cause delay now) rfl

theorem markDead_ends (h : w.At base relay.graveyard.topic time t) {row : Row} (hrow : t.find? row.id = some row)
    (hsending : row.status = .sending) (cause : String) (now : Instant) :
    w.Ends tableBackend (Program.ask (.markDead row.id cause now)) fun _ flights w' => flights = [] ∧
      ∃ t', t.Replaced (row.deadLettered cause now) t' ∧ w'.At base relay.graveyard.topic time t' :=
  mark_ends h hrow hsending rfl (·.deadLettered cause now) (·.id_deadLettered cause now) rfl

/-- A ride that failed is entered between one world and another: its row is replaced, and the time is that of the
stamp. -/
def Entered (relay : Relay) (base : Instant) (t : Table) (time : Nat) (ride : Ride relay.publisher)
    (flights : List Flight) (w' : World Table) : Prop :=
  ∃ (entry : Entry relay base) (t' : Table), entry.ride = ride ∧ entry.start = time ∧ entry.letters = flights ∧
    t.Replaced entry.final t' ∧ w'.At base relay.graveyard.topic entry.stamp t'

variable {ride : Ride relay.publisher} {failure : Failure}

theorem exists_problem {g : Graveyard} {delivery : Delivery} (h : ∀ text, delivery ≠ .crashed text) :
    ∃ problem, g.problem delivery = .ok problem := by
  cases delivery with
  | delivered | refused | timedOut => exact ⟨_, rfl⟩
  | crashed text => exact absurd rfl (h text)

/-- A ride is entered with the one flight of its dead letter when that is over. -/
theorem entered_of_letter (hfailure : ride.failure = some failure) {f : Flight}
    (hleft : f.LeftAt relay.graveyard.limit time) {final : Row}
    (hsettled : Settled relay ride.row (base.later f.finish) ride.posts [postOf f] final) {t' : Table}
    (hreplaced : t.Replaced final t') (h' : w.At base relay.graveyard.topic f.finish t') :
    Entered relay base t time ride [f] w := by
  have hstamp : f.finish = latest time ([f].map Flight.finish) := by
    have hle : time ≤ f.finish := by
      rw [hleft.finish_eq]
      exact Nat.le_add_right _ _
    exact (Nat.max_eq_left hle).symm
  rw [hstamp] at hsettled h'
  exact ⟨⟨ride, failure, hfailure, time, [f], List.forall_mem_singleton.2 hleft, final, hsettled⟩, t', rfl, rfl, rfl,
    hreplaced, h'⟩

theorem bury_ends (h : w.At base relay.graveyard.topic time t) (hfailure : ride.failure = some failure)
    (hrow : t.find? ride.row.id = some ride.row) (hsending : ride.row.status = .sending)
    (hover : failure.isTransient = false ∨
      ∃ most, relay.policy.maxAttempts = some most ∧ most ≤ ride.row.attempt.toNat) :
    w.Ends tableBackend (relay.graveyard.bury ⟨ride.row, failure, failure.isTransient⟩
      (relay.policy.delayAfter ride.row.attempt)) fun _ => Entered relay base t time ride := by
  rw [Graveyard.bury]
  refine .bind h.readClock ?_
  rintro _ _ w₁ ⟨rfl, rfl, h₁⟩
  refine .bind (h₁.deliverOne _ _) ?_
  rintro _ _ w₂ ⟨f, hleft, hparcel, rfl, rfl, hspared, h₂⟩
  obtain ⟨problem, hproblem⟩ := exists_problem (g := relay.graveyard) (hspared rfl)
  refine .bind (.ofExcept hproblem) ?_
  rintro _ _ _ ⟨rfl, rfl, rfl⟩
  split
  · refine .bind h₂.readClock ?_
    rintro _ _ w₃ ⟨rfl, rfl, h₃⟩
    refine .bind (markDead_ends h₃ hrow hsending _ _) ?_
    rintro _ _ w₄ ⟨rfl, t', hreplaced, h₄⟩
    refine .pure (entered_of_letter hfailure hleft ?_ hreplaced h₄)
    rw [postOf, hparcel, Graveyard.delivered_of_problem hproblem]
    exact .deadLettered (ride.undelivered hfailure) hover _
  · refine .bind h₂.readClock ?_
    rintro _ _ w₃ ⟨rfl, rfl, h₃⟩
    refine .bind (markFailed_ends h₃ hrow hsending _ _ _) ?_
    rintro _ _ w₄ ⟨rfl, t', hreplaced, h₄⟩
    refine .pure (entered_of_letter hfailure hleft ?_ hreplaced h₄)
    rw [postOf, hparcel]
    exact .kept (ride.undelivered hfailure) hover _ (Graveyard.undelivered_of_problem hproblem)

theorem recordFailed_ends (h : w.At base relay.graveyard.topic time t) (hfailure : ride.failure = some failure)
    (hrow : t.find? ride.row.id = some ride.row) (hsending : ride.row.status = .sending) (report : Report) :
    w.Ends tableBackend (relay.recordFailed ⟨ride.row, failure, failure.isTransient⟩ report) fun _ =>
      Entered relay base t time ride := by
  rw [recordFailed, FailedRow.disposition]
  refine .bind (h.note _) ?_
  rintro _ _ w₁ ⟨rfl, h₁⟩
  rcases relay.policy.disposition_cases failure.isTransient ride.row.attempt with
    ⟨hover, hdisposition⟩ | ⟨⟨htransient, hleft⟩, hdisposition⟩
  · rw [hdisposition]
    refine .bind (bury_ends h₁ hfailure hrow hsending hover) ?_
    rintro _ flights w₂ hentered
    exact .pure ((List.append_nil flights).symm ▸ hentered)
  · rw [hdisposition]
    refine .bind h₁.readClock ?_
    rintro _ _ w₂ ⟨rfl, rfl, h₂⟩
    refine .bind (markFailed_ends h₂ hrow hsending _ _ _) ?_
    rintro _ _ w₃ ⟨rfl, t', hreplaced, h₃⟩
    have hundelivered := ride.undelivered hfailure
    rw [htransient] at hundelivered
    have hsettled : Settled relay ride.row (base.later time) ride.posts []
        (ride.row.failed failure.message (relay.policy.delayAfter ride.row.attempt) (base.later time)) :=
      .retried hundelivered hleft
    exact .pure ⟨⟨ride, failure, hfailure, time, [], List.forall_mem_nil _, _, hsettled⟩, t', rfl, rfl, rfl,
      hreplaced, h₃⟩

/-- The rides that failed are entered one after the other. -/
theorem recordAllFailed_ends (h : w.At base relay.graveyard.topic time t) (rides : List (Ride relay.publisher))
    (hids : (rides.map (·.row.id)).Nodup)
    (hrows : ∀ ride ∈ rides, ride.failure.isSome → t.find? ride.row.id = some ride.row ∧ ride.row.status = .sending)
    (report : Report) :
    w.Ends tableBackend (relay.recordAllFailed ((rides.map (·.outcome)).filterMap failedRow?) report)
      fun _ flights w' => ∃ (entries : List (Entry relay base)) (finish : Nat) (t' : Table),
        Entries relay base time entries finish ∧ entries.map Entry.ride = rides.filter (·.failure.isSome) ∧
        entries.flatMap Entry.letters = flights ∧ (∀ entry ∈ entries, t'.find? entry.ride.row.id = some entry.final) ∧
        (∀ id, (∀ entry ∈ entries, entry.ride.row.id ≠ id) → t'.find? id = t.find? id) ∧
        w'.At base relay.graveyard.topic finish t' := by
  induction rides generalizing w t time report with
  | nil => exact .pure ⟨[], time, t, .nil time, rfl, rfl, List.forall_mem_nil _, fun _ _ => rfl, h⟩
  | cons ride rest ih =>
    obtain ⟨hfirst, hrest⟩ := List.nodup_cons.1 hids
    obtain ⟨hstands, hothers⟩ := List.forall_mem_cons.1 hrows
    rw [List.map_cons, List.filterMap_cons]
    cases hfailure : ride.failure with
    | none =>
      have hnone : failedRow? ride.outcome = none := by
        rw [Sending.outcome, hfailure]
        rfl
      rw [hnone, List.filter_cons_of_neg (by rw [hfailure]; decide)]
      exact ih h hrest hothers report
    | some failure =>
      obtain ⟨hrow, hsending⟩ := hstands (by rw [hfailure]; rfl)
      have hsome : failedRow? ride.outcome = some ⟨ride.row, failure, failure.isTransient⟩ := by
        rw [Sending.outcome, hfailure]
        rfl
      rw [hsome, List.filter_cons_of_pos (by rw [hfailure]; rfl), recordAllFailed]
      refine .bind (recordFailed_ends h hfailure hrow hsending report) ?_
      rintro report' flights w₁ ⟨entry, t₁, rfl, rfl, rfl, hreplaced, h₁⟩
      have hne (other) (hother : other ∈ rest) : other.row.id ≠ entry.final.id := fun heq =>
        hfirst (List.mem_map.2 ⟨other, hother, heq.trans entry.id_final⟩)
      have hstill (other) (hother : other ∈ rest) (hfailed : other.failure.isSome) :
          t₁.find? other.row.id = some other.row ∧ other.row.status = .sending := by
        rw [hreplaced.others _ (hne other hother)]
        exact hothers other hother hfailed
      refine (ih h₁ hrest hstill report').imp ?_
      rintro _ letters w₂ ⟨entries, finish, t₂, hentries, hrides, rfl, hfound, hsame, h₂⟩
      refine ⟨entry :: entries, finish, t₂, .cons entry hentries, congrArg (entry.ride :: ·) hrides, rfl,
        List.forall_mem_cons.2 ⟨?_, hfound⟩, fun id hid => ?_, h₂⟩
      · rw [← entry.id_final, hsame, hreplaced.found]
        intro other hother
        exact hne other.ride (List.mem_of_mem_filter (hrides ▸ List.mem_map_of_mem hother))
      · obtain ⟨hentry, hlater⟩ := List.forall_mem_cons.1 hid
        rw [hsame id hlater, hreplaced.others id (by rw [entry.id_final]; exact hentry.symm)]

/-! ### Ticks -/

theorem recordDelivered_ends (h : w.At base relay.graveyard.topic time t) (ids : List Int) (report : Report) :
    w.Ends tableBackend (recordDelivered ids report) fun _ flights w' => flights = [] ∧
      w'.At base relay.graveyard.topic time (t.markPublished (base.later time) ids).2 := by
  rw [recordDelivered]
  split
  · next hempty =>
    obtain rfl := List.isEmpty_iff.1 hempty
    exact .pure ⟨rfl, h⟩
  · refine .bind h.readClock ?_
    rintro _ _ w₁ ⟨rfl, rfl, h₁⟩
    have hanswer : t.answer (.markPublished ids (base.later time)) =
        (.ok (t.markPublished (base.later time) ids).1, (t.markPublished (base.later time) ids).2) := rfl
    refine .bind (h₁.ask (.inl rfl) hanswer) ?_
    rintro _ _ w₂ ⟨rfl, rfl, h₂⟩
    rw [if_neg (Nat.not_lt.2 (t.fst_markPublished_le _ ids))]
    exact .pure ⟨rfl, h₂⟩

/-- What a tick makes of the rows that its claim returns, and when. -/
theorem tickAt_ends (h : w.At base relay.graveyard.topic time t) {now : Instant} {rows : List Row} {claimed : Table}
    (hclaim : t.claim relay.config.partition relay.config.batchSize now relay.config.stuck = some (rows, claimed)) :
    w.Ends tableBackend (relay.tickAt now) fun _ flights w' =>
      ∃ (course : List (List (Ride relay.publisher))) (ended : Nat) (entries : List (Entry relay base)) (finish : Nat)
        (t' : Table), Course relay.publisher time course ended ∧
        course.map (List.map (·.row)) = chunks relay.publisher.chunk rows ∧
        Entries relay base ended entries finish ∧ entries.map Entry.ride = course.flatten.filter (·.failure.isSome) ∧
        course.flatten.flatMap Ride.flights ++ entries.flatMap Entry.letters = flights ∧
        (∀ ride ∈ course.flatten, ride.failure = none →
          t'.find? ride.row.id = some (ride.row.published (base.later ended))) ∧
        (∀ entry ∈ entries, t'.find? entry.ride.row.id = some entry.final) ∧
        w'.At base relay.graveyard.topic finish t' := by
  rw [tickAt]
  refine .bind (h.ask (.inr ⟨⟨_, _, _, _⟩, rfl⟩) (Table.answer_claim hclaim)) ?_
  rintro answer _ w₁ ⟨hanswer, rfl, h₁⟩
  subst answer
  split
  · next hempty =>
    obtain rfl := List.isEmpty_iff.1 hempty
    have hchunks : chunks relay.publisher.chunk ([] : List Row) = [] := by rw [chunks]
    exact .pure ⟨[], time, [], time, claimed, .nil time, hchunks.symm, .nil time, rfl, rfl, List.forall_mem_nil _,
      List.forall_mem_nil _, h₁⟩
  · refine .bind (h₁.process _ _) ?_
    rintro _ _ w₂ ⟨course, ended, hcourse, hchunks, rfl, rfl, h₂⟩
    have hrows : course.flatten.map (·.row) = rows := by
      rw [List.map_flatten, hchunks, flatten_chunks]
    have hids : (course.flatten.map (·.row.id)).Nodup := by
      have hnodup := Table.nodup_claim hclaim
      rwa [← hrows, List.map_map] at hnodup
    have hstart (ride) (hride : ride ∈ course.flatten) :
        claimed.find? ride.row.id = some ride.row ∧ ride.row.status = .sending := by
      obtain ⟨before, -, -, hrow, hfound⟩ := Table.find?_after_claim hclaim (hrows ▸ List.mem_map_of_mem hride)
      exact ⟨hfound, by rw [hrow]; rfl⟩
    refine .bind (recordDelivered_ends h₂ _ _) ?_
    rintro report _ w₃ ⟨rfl, h₃⟩
    refine (recordAllFailed_ends h₃ course.flatten hids (fun ride hride hfailed => ?_) report).imp ?_
    · rw [Table.find?_markPublished_of_notMem]
      · exact hstart ride hride
      · rw [Ride.mem_delivered hids hride]
        rintro hnone
        rw [hnone] at hfailed
        cases hfailed
    · rintro _ _ w₄ ⟨entries, finish, t', hentries, hrides, rfl, hfound, hothers, h₄⟩
      refine ⟨course, ended, entries, finish, t', hcourse, hchunks, hentries, hrides, rfl,
        fun ride hride hnone => ?_, hfound, h₄⟩
      obtain ⟨hrow, hsending⟩ := hstart ride hride
      rw [hothers, Table.find?_markPublished, hrow, Option.map_some,
        if_pos ⟨(Ride.mem_delivered hids hride).2 hnone, hsending⟩]
      intro entry hentry heq
      have hmem : entry.ride ∈ course.flatten.filter (·.failure.isSome) := hrides ▸ List.mem_map_of_mem hentry
      obtain rfl := List.inj_on_of_nodup_map hids (List.mem_of_mem_filter hmem) hride heq
      rw [entry.failed] at hnone
      cases hnone

end

/-- The delay of a failed row counts from its failure, however long the tick takes. Let the table answer every call of
the tick and nobody else mark rows in it, and let the clock move with the time that passes, which is less than a date
can be moved by. The tick ends with a report. Its rows are delivered in chunks, the next one when all rows of the one
before are through; then those that failed are recorded one after the other, in their order, each with a mark after the
flight of its dead letter, if it has one; and there are no other flights. All rows that were delivered are stamped with
what the clock shows when the last chunk is through. The stamps of the failed rows never go back, and none is earlier
than the instant at which its row failed, nor than that at which its dead letter did. A row that is left failed is due
the delay of its attempt after its stamp. So the first claim that returns it again, whatever else is asked of the table,
comes no earlier than that delay after any of its failures. -/
theorem tick_stamps (relay : Relay) {w : World Table} (hmoving : w.moving) (hquiet : w.IsQuiet)
    (hspares : w.Spares relay.graveyard.topic) {now : Instant} {rows : List Row} {claimed : Table}
    (hclaim : w.contents.claim relay.config.partition relay.config.batchSize now relay.config.stuck =
      some (rows, claimed))
    (hshort : (w.complete tableBackend (relay.tickAt now).run).2.elapsed < 2 ^ 63) :
    let finished := w.complete tableBackend (relay.tickAt now).run
    let t := finished.2.contents
    ∃ (report : Report) (course : List (List (Ride relay.publisher))) (ended : Nat)
      (entries : List (Entry relay w.start)),
      finished.1 = .ok report ∧
      course.map (List.map (·.row)) = chunks relay.publisher.chunk rows ∧
      Course relay.publisher w.elapsed course ended ∧
      entries.map Entry.ride = course.flatten.filter (·.failure.isSome) ∧
      Entries relay w.start ended entries finished.2.elapsed ∧
      (w.flights tableBackend (relay.tickAt now).run).flatten =
        course.flatten.flatMap Ride.flights ++ entries.flatMap Entry.letters ∧
      (∀ ride ∈ course.flatten, ride.failure = none →
        t.find? ride.row.id = some (ride.row.published (w.start.later ended))) ∧
      (entries.map (·.final.updatedAt)).Pairwise (· ≤ ·) ∧
      ∀ entry ∈ entries, t.find? entry.ride.row.id = some entry.final ∧
        (∀ failedAt ∈ entry.ride.finish :: entry.letters.map Flight.finish,
          w.start.later failedAt ≤ entry.final.updatedAt) ∧
        (entry.final.status = .failed →
          let delay := relay.policy.backoff (max entry.ride.row.attempt 1).toNat
          entry.final.nextRetryAt = entry.final.updatedAt.after delay ∧
          ∀ failedAt ∈ entry.ride.finish :: entry.letters.map Flight.finish,
          ∀ (requests : List Request) (claim : Claim), Table.Unclaimed entry.ride.row.id t requests →
            (t.run requests).Hands claim.request entry.ride.row.id →
            (w.start.later failedAt).after delay ≤ claim.now) := by
  intro finished t
  have hat : w.At w.start relay.graveyard.topic w.elapsed w.contents := ⟨hmoving, rfl, hquiet, hspares, rfl, rfl⟩
  obtain ⟨report, hreport, course, ended, entries, finish, t', hcourse, hchunks, hentries, hrides, hflights, hdelivered,
    hfound, hafter⟩ := tickAt_ends hat hclaim
  obtain rfl : finished.2.elapsed = finish := hafter.elapsed_eq
  obtain rfl : t = t' := hafter.contents_eq
  have hclock {a b : Nat} (hle : a ≤ b) (hb : b ≤ finished.2.elapsed) : w.start.later a ≤ w.start.later b :=
    w.start.later_le_later hle (Nat.lt_of_le_of_lt hb hshort)
  have hfailedAt (entry) (hentry : entry ∈ entries) :
      ∀ failedAt ∈ entry.ride.finish :: entry.letters.map Flight.finish,
        w.start.later failedAt ≤ entry.final.updatedAt := by
    obtain ⟨hstart, hstamp⟩ := hentries.bounds.2 entry hentry
    rw [entry.updatedAt_final]
    refine List.forall_mem_cons.2 ⟨hclock ?_ hstamp, List.forall_mem_map.2 fun f hf =>
      hclock (entry.finish_le_stamp hf) hstamp⟩
    -- The ride was through before the last chunk ended, and the first entry starts only then.
    have hride : entry.ride ∈ course.flatten.filter (·.failure.isSome) := hrides ▸ List.mem_map_of_mem hentry
    exact Nat.le_trans (hcourse.finish_le.2 _ (List.mem_of_mem_filter hride))
      (Nat.le_trans hstart entry.start_le_stamp)
  refine ⟨report, course, ended, entries, hreport, hchunks, hcourse, hrides, hentries, hflights.symm, hdelivered, ?_,
    fun entry hentry => ⟨hfound entry hentry, hfailedAt entry hentry, fun hfailed => ?_⟩⟩
  · refine List.pairwise_map.2 (hentries.pairwise.imp_of_mem fun {e e'} _ he' hle => ?_)
    rw [e.updatedAt_final, e'.updatedAt_final]
    exact hclock hle (hentries.bounds.2 e' he').2
  · refine ⟨entry.nextRetryAt_final hfailed, fun failedAt hmem requests claim hunclaimed hhands => ?_⟩
    have hdue : t.DueAt entry.ride.row.id entry.final.nextRetryAt :=
      ⟨entry.final, hfound entry hentry, hfailed, rfl⟩
    have hle := (hdue.run requests hunclaimed).2.le_of_hands hhands
    rw [entry.nextRetryAt_final hfailed] at hle
    exact Int.le_trans (Instant.after_le_after_of_le (hfailedAt entry hentry failedAt hmem) _) hle

/-- A relay with time limits of a few milliseconds. -/
def hurried : Relay := { publisher := { chunk := 2, limit := .ofMillis 10 }, graveyard := { limit := .ofMillis 5 } }

/-- A world with three rows to be delivered, the second without a parcel. Its broker takes the first parcel that it gets
after 3 milliseconds, is too slow with the next one, and refuses the third. -/
def lagging : World Table where
  start := .epoch
  contents :=
    (Table.saveAll {} ([carrying 1 [123, 125], carrying 2 [120], carrying 3 [123, 125]].map Row.event)).2
  rules := [{ uses := some 1, delay := 3 }, { uses := some 1, delay := 20 },
    { uses := some 1, delay := 4, ending := .refuse (.unavailable "down") }]

theorem claim_lagging : lagging.contents.claim .whole 100 .epoch (.ofSeconds 600) =
    some (lagging.contents.rows.map (·.claimed ⟨0⟩ .epoch), lagging.contents.hand lagging.contents.rows .epoch) := by
  have hdue : ∀ r ∈ lagging.contents.rows,
      Partition.whole.owns r.id ∧ r.isClaimable? .epoch (.ofSeconds 600) = some true := by decide +kernel
  have hqueue : lagging.contents.queue .whole .epoch (.ofSeconds 600) = lagging.contents.rows :=
    Table.queue_eq (by decide +kernel) fun r => ⟨fun hr => ⟨hr, hdue r hr⟩, And.left⟩
  rw [Table.claim_eq_queue 100 (.inr (Table.judged_of_date (by decide) _ _)), hqueue]
  rfl

theorem complete_tickAt {w : World Table} {now : Instant} {rows : List Row} {claimed : Table}
    (hclaim : w.contents.claim relay.config.partition relay.config.batchSize now relay.config.stuck =
      some (rows, claimed)) :
    w.complete tableBackend (relay.tickAt now).run =
      { w with contents := claimed }.complete tableBackend (relay.work rows).run := by
  let request : Request := .claim relay.config.partition relay.config.batchSize now relay.config.stuck
  have hanswer : w.contents.answer request = (.ok rows, claimed) := Table.answer_claim hclaim
  rw [tickAt_eq]
  change World.complete tableBackend (ExceptT.bindCont relay.work (w.contents.answer request).1)
    { w with contents := (w.contents.answer request).2 } = _
  rw [hanswer]
  rfl

/-- The first row is stamped when the third one has timed out, and the others when the dead letter of the second one is
refused; they are due 5 seconds after that. -/
theorem lagging_tick_stamps :
    let finished := lagging.complete tableBackend (hurried.tickAt .epoch).run
    finished.2.elapsed = 17 ∧
    (finished.2.contents.rows.map fun r => (r.id, r.status, r.updatedAt.nanos, r.nextRetryAt.nanos)) =
      [(1, .published, 13000000, 0), (2, .failed, 17000000, 5017000000), (3, .failed, 17000000, 5017000000)] ∧
    ∃ entries : List (Entry hurried .epoch), (entries.map (·.final.updatedAt)).Pairwise (· ≤ ·) ∧
      ∀ entry ∈ entries, finished.2.contents.find? entry.ride.row.id = some entry.final ∧
        Instant.epoch.later entry.ride.finish ≤ entry.final.updatedAt := by
  intro finished
  have hfinished := @complete_tickAt hurried lagging .epoch _ _ claim_lagging
  have helapsed : finished.2.elapsed = 17 := by
    change (lagging.complete tableBackend (hurried.tickAt .epoch).run).2.elapsed = 17
    rw [hfinished]
    decide +kernel
  have hspares : lagging.Spares hurried.graveyard.topic := World.spares_of_rules (by simp [lagging])
  obtain ⟨-, -, -, entries, -, -, -, -, -, -, -, hstamps, hentries⟩ := tick_stamps hurried rfl
    (by simp [World.IsQuiet, Simulation.Rule.IsQuiet, lagging]) hspares claim_lagging
    (show finished.2.elapsed < 2 ^ 63 by rw [helapsed]; decide)
  refine ⟨helapsed, ?_, entries, hstamps, fun entry hentry => ?_⟩
  · change ((lagging.complete tableBackend (hurried.tickAt .epoch).run).2.contents.rows.map _) = _
    rw [hfinished]
    decide +kernel
  · obtain ⟨hfound, hlater, -⟩ := hentries entry hentry
    exact ⟨hfound, hlater _ List.mem_cons_self⟩

end Relay

end Outbox
