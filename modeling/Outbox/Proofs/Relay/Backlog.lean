import Mathlib.Data.List.Forall2
import Outbox.Proofs.Count
import Outbox.Proofs.Relay.Ceiling
import Outbox.Proofs.Store.Queue

/-! How a healthy relay drains its backlog. A tick in which no call fails and every parcel is delivered publishes the
front of the queue, row by row in order, and leaves all other rows. The rest of the queue stays claimable and what was
published never is, so the next tick goes on where the last one ended. -/

namespace Outbox.Relay

open Simulation (Flight)

variable {env : Surroundings} {relay : Relay} {p : Publisher} {t t' t'' : Table} {row : Row}

/-! ### Deliveries that cannot fail -/

/-- The broker takes every parcel under a time limit in time. -/
def Surroundings.Prompt (env : Surroundings) (limit : Span) : Prop :=
  ∀ story parcels place, (env.treat story parcels place).ending = .accept ∧
    (env.treat story parcels place).delay ≤ limit.timerMillis

theorem Surroundings.Prompt.carries (h : env.Prompt p.limit) : env.Carries p (· = .delivered) := by
  intro story parcels delivery hdelivery
  obtain ⟨place, hplace, rfl⟩ := List.mem_mapIdx.1 hdelivery
  obtain ⟨hending, hdelay⟩ := h story parcels place
  rw [Flight.delivery_depart, if_pos hdelay, hending]
  rfl

/-- The message of the row can be made and its topic resolved. -/
structure Publisher.Fits (p : Publisher) (row : Row) : Prop where
  message : (Message.ofRow row).isOk
  topic : (Topic.resolve p.topicLead row.event.aggregateType).isOk

/-- The post is the parcel of the row at its next attempt, and was delivered. -/
def Publisher.Delivers (p : Publisher) (row : Row) (post : Parcel × Delivery) : Prop :=
  p.parcel { row with attempt := row.attempt + 1 } = .ok post.1 ∧ post.2 = .delivered

theorem Publisher.parcel_claimed (p : Publisher) (row : Row) (token : Token) (now : Instant) :
    p.parcel (row.claimed token now) = p.parcel { row with attempt := row.attempt + 1 } := rfl

/-- The payload and the aggregate type decide alone whether a row has a parcel. -/
theorem Publisher.Fits.exists_parcel (h : p.Fits row) (token : Token) (now : Instant) :
    ∃ parcel, p.parcel (row.claimed token now) = .ok parcel := by
  have hmessage := h.message
  have htopic := h.topic
  have hevent : (row.claimed token now).event = row.event := rfl
  rw [Message.ofRow] at hmessage
  rw [parcel, Message.ofRow, hevent]
  cases hpayload : Json.parse row.event.payload with
  | error e =>
    rw [hpayload] at hmessage
    cases hmessage
  | ok payload =>
    cases hresolved : Topic.resolve p.topicLead row.event.aggregateType with
    | error e =>
      rw [hresolved] at htopic
      cases htopic
    | ok topic => exact ⟨_, rfl⟩

/-- Sendings of rows with parcels, all of which are delivered, have no failures, and a post for each row in order. -/
theorem Sending.all_delivered (sendings : List (Sending p))
    (hparcels : ∀ sending ∈ sendings, ∃ parcel, p.parcel sending.row = .ok parcel)
    (hfates : ∀ post ∈ sendings.flatMap posts, post.2 = .delivered) :
    (∀ sending ∈ sendings, sending.failure = none) ∧
      List.Forall₂ (fun row post => p.parcel row = .ok post.1 ∧ post.2 = Delivery.delivered) (sendings.map Sending.row)
        (sendings.flatMap posts) := by
  induction sendings with
  | nil => exact ⟨List.forall_mem_nil _, .nil⟩
  | cons sending rest ih =>
    obtain ⟨⟨parcel, hparcel⟩, hothers⟩ := List.forall_mem_cons.1 hparcels
    rw [List.flatMap_cons] at hfates ⊢
    obtain ⟨hfirst, hrest⟩ := List.forall_mem_append.1 hfates
    obtain ⟨hnone, hposts⟩ := ih hothers hrest
    obtain ⟨row, posts, failure, hsent⟩ := sending
    cases hsent with
    | unaddressed h =>
      rw [hparcel] at h
      cases h
    | posted delivery h =>
      have hdelivered : delivery = .delivered := hfirst _ (List.mem_singleton_self _)
      exact ⟨List.forall_mem_cons.2 ⟨Publisher.failureOf_eq_none.2 hdelivered, hnone⟩, .cons ⟨h, hdelivered⟩ hposts⟩

/-! ### One tick -/

/-- The report of a tick that publishes all that it claims. -/
def Report.clean (n : Nat) : Report := { claimed := n, published := n }

/-- Rows that were all delivered are recorded by one mark of them all. -/
theorem recordAll_yields {s : Scene} (hfaults : env.Faultless) (sendings : List (Sending relay.publisher))
    (hids : (sendings.map fun sending => sending.row.id).Nodup)
    (hrows : ∀ sending ∈ sendings,
      s.table.find? sending.row.id = some sending.row ∧ sending.row.status = .sending)
    (hnone : ∀ sending ∈ sendings, sending.failure = none) :
    (do
      let batch := Batch.ofOutcomes (sendings.map Sending.outcome)
      let report ← recordDelivered batch.delivered { claimed := sendings.length }
      relay.recordAllFailed batch.failed report : Program.Interruptible Report).Yields env (fun report s' =>
        report = .clean sendings.length ∧ s'.story.posts = s.story.posts ∧
        (∃ time, ∀ sending ∈ sendings, s'.table.find? sending.row.id = some (sending.row.published time)) ∧
        ∀ id, (∀ sending ∈ sendings, sending.row.id ≠ id) → s'.table.find? id = s.table.find? id) s := by
  have hfailed : (sendings.map Sending.outcome).filterMap failedRow? = [] := by
    rw [List.filterMap_eq_nil_iff, List.forall_mem_map]
    intro sending hsending
    rw [Sending.outcome, hnone sending hsending]
    rfl
  have hall : (sendings.countP fun sending => sending.failure.isNone) = sendings.length := by
    rw [List.countP_eq_length]
    intro sending hsending
    rw [hnone sending hsending]
    rfl
  refine .bind (recordDelivered_yields hfaults sendings hids hrows _) ?_
  rintro _ s' ⟨time, hstands, hposts, -, hothers, rfl⟩
  change (relay.recordAllFailed ((sendings.map Sending.outcome).filterMap failedRow?) _).Yields _ _ _
  rw [hfailed, recordAllFailed, hall]
  refine .pure ⟨rfl, hposts, ⟨time, fun sending hsending => ?_⟩, hothers⟩
  exact ((hstands sending hsending).delivered (hnone sending hsending)).1

/-- A tick publishes the rows that its claim returns, if each has a parcel. -/
theorem tickAt_publishes {s : Scene} {now : Instant} {front : List Row} {claimed : Table} (hfaults : env.Faultless)
    (hprompt : env.Prompt relay.publisher.limit) (hfits : ∀ r ∈ front, relay.publisher.Fits r)
    (hclaim : s.table.claim relay.config.partition relay.config.batchSize now relay.config.stuck =
      some (front.map (·.claimed s.table.token now), claimed)) :
    (relay.tickAt now).Yields env (fun report s' =>
      report = .clean front.length ∧
      (∃ posts, s'.story.posts = s.story.posts ++ posts ∧ List.Forall₂ relay.publisher.Delivers front posts) ∧
      (∀ r ∈ front, ∃ time, s'.table.find? r.id = some ((r.claimed s.table.token now).published time)) ∧
      ∀ id, (∀ r ∈ front, r.id ≠ id) → s'.table.find? id = s.table.find? id) s := by
  have hothers (id : Int) (hid : ∀ r ∈ front, r.id ≠ id) : claimed.find? id = s.table.find? id :=
    Table.find?_after_claim_of_notMem hclaim (List.forall_mem_map.2 hid)
  rw [tickAt]
  refine .bind (.ask (hfaults _ _) (Table.answer_claim hclaim)) ?_
  rintro _ s₁ ⟨rfl, rfl⟩
  split
  · next hempty =>
    obtain rfl : front = [] := by simpa using hempty
    exact .pure ⟨rfl, ⟨[], (List.append_nil _).symm, .nil⟩, List.forall_mem_nil _, hothers⟩
  · refine .bind (.lift (process_yields hprompt.carries _)) ?_
    rintro _ s₂ ⟨sendings, hrows, rfl, hfates, hposted⟩
    have hids : (sendings.map fun sending => sending.row.id).Nodup := by
      have := Table.nodup_claim hclaim
      rwa [← hrows, List.map_map] at this
    -- The sendings are those of the claimed rows.
    have hfront (motive : Row → Prop) :
        (∀ sending ∈ sendings, motive sending.row) ↔ ∀ r ∈ front, motive (r.claimed s.table.token now) := by
      rw [← List.forall_mem_map, hrows, List.forall_mem_map]
    have hparcels := (hfront fun row => ∃ parcel, relay.publisher.parcel row = .ok parcel).2 fun r hr =>
      (hfits r hr).exists_parcel _ _
    obtain ⟨hnone, hposts⟩ := Sending.all_delivered sendings hparcels hfates
    have hstart := (hfront fun row => s₂.table.find? row.id = some row ∧ row.status = .sending).2 fun r hr => by
      obtain ⟨-, -, -, -, hfound⟩ := Table.find?_after_claim hclaim (List.mem_map_of_mem hr)
      exact ⟨hposted.table ▸ hfound, rfl⟩
    have hlength : (front.map (·.claimed s.table.token now)).length = sendings.length := by
      rw [← hrows, List.length_map]
    rw [hlength]
    refine (recordAll_yields hfaults sendings hids hstart hnone).imp ?_
    rintro _ s₃ ⟨rfl, hstory, ⟨time, hpublished⟩, hkept⟩
    refine ⟨?_, ⟨sendings.flatMap Sending.posts, ?_, ?_⟩, fun r hr => ⟨time, ?_⟩, fun id hid => ?_⟩
    · rw [← hlength, List.length_map]
    · rw [hstory, hposted.posts]
      rfl
    · rw [hrows, List.forall₂_map_left_iff] at hposts
      refine hposts.imp fun r post h => ?_
      rwa [relay.publisher.parcel_claimed] at h
    · exact (hfront fun row => s₃.table.find? row.id = some (row.published time)).1 hpublished r hr
    · rw [hkept id ((hfront fun row => row.id ≠ id).2 hid), hposted.table, hothers id hid]

/-! ### Ticks in a row -/

/-- Rows were claimed and published, and no others changed. -/
structure Drained (t : Table) (done : List Row) (t' : Table) : Prop where
  token_eq : t'.token = t.token
  published : ∀ r ∈ done, ∃ claimed time, t'.find? r.id = some ((r.claimed t.token claimed).published time)
  others_kept : ∀ id, (∀ r ∈ done, r.id ≠ id) → t'.find? id = t.find? id

theorem Drained.nil (t : Table) : Drained t [] t := ⟨rfl, List.forall_mem_nil _, fun _ _ => rfl⟩

theorem Drained.find?_of_notMem {done : List Row} (h : Drained t done t') (hdone : ∀ d ∈ done, d ∈ t.rows)
    (hrow : row ∈ t.rows) (hnot : row ∉ done) : t'.find? row.id = some row := by
  rw [h.others_kept, Table.find?_of_mem hrow]
  intro d hd hid
  obtain rfl := Table.eq_of_id_eq (hdone d hd) hrow hid
  exact hnot hd

theorem Drained.trans {first rest : List Row} (h : Drained t first t') (h' : Drained t' rest t'')
    (hids : ∀ r ∈ first, ∀ r' ∈ rest, r'.id ≠ r.id) : Drained t (first ++ rest) t'' where
  token_eq := h'.token_eq.trans h.token_eq
  published := by
    refine List.forall_mem_append.2 ⟨fun r hr => ?_, ?_⟩
    · rw [h'.others_kept r.id (hids r hr)]
      exact h.published r hr
    · rw [← h.token_eq]
      exact h'.published
  others_kept id hid := by
    obtain ⟨hfirst, hrest⟩ := List.forall_mem_append.1 hid
    rw [h'.others_kept id hrest, h.others_kept id hfirst]

/-- What a relay has to do at some times: the rows of its partition that may be claimed at each of them, in order. -/
structure Backlog (relay : Relay) (t : Table) (times : List Instant) (rows : List Row) : Prop where
  ordered : rows.Pairwise Row.Before
  owned : ∀ r ∈ rows, r ∈ t.rows ∧ relay.config.partition.owns r.id
  due : ∀ now ∈ times, ∀ r ∈ t.rows, relay.config.partition.owns r.id →
    r.isClaimable? now relay.config.stuck = some (decide (r ∈ rows))
  fits : ∀ r ∈ rows, relay.publisher.Fits r

namespace Backlog

variable {now : Instant} {times : List Instant} {rows : List Row}

theorem queue_eq (h : Backlog relay t (now :: times) rows) :
    t.queue relay.config.partition now relay.config.stuck = rows := by
  have hdue := h.due now List.mem_cons_self
  refine Table.queue_eq h.ordered fun r => ?_
  constructor
  · intro hr
    obtain ⟨hmem, hown⟩ := h.owned r hr
    refine ⟨hmem, hown, ?_⟩
    rw [hdue r hmem hown, decide_eq_true hr]
  · rintro ⟨hmem, hown, hclaimable⟩
    rw [hdue r hmem hown] at hclaimable
    simpa using hclaimable

theorem judged (h : Backlog relay t (now :: times) rows) :
    t.Judged relay.config.partition now relay.config.stuck := by
  intro r hr
  rw [Row.isDue?]
  split
  · next hown => rw [h.due now List.mem_cons_self r hr hown]; rfl
  · rfl

theorem ids_ne (h : Backlog relay t times rows) (n : Nat) : ∀ r ∈ rows.take n, ∀ r' ∈ rows.drop n, r'.id ≠ r.id := by
  intro r hr r' hr' hid
  have hmem := (h.owned r (List.mem_of_mem_take hr)).1
  have hmem' := (h.owned r' (List.mem_of_mem_drop hr')).1
  obtain rfl := Table.eq_of_id_eq hmem' hmem hid
  exact List.disjoint_take_drop (h.ordered.imp Row.Before.ne) (Nat.le_refl n) hr hr'

/-- A tick that publishes the front of a backlog leaves the rest of it. -/
theorem after (h : Backlog relay t (now :: times) rows) {n : Nat} (hdrained : Drained t (rows.take n) t') :
    Backlog relay t' times (rows.drop n) where
  ordered := h.ordered.sublist (List.drop_sublist _ _)
  owned r hr := by
    obtain ⟨hmem, hown⟩ := h.owned r (List.mem_of_mem_drop hr)
    refine ⟨?_, hown⟩
    have hfound := hdrained.others_kept r.id fun r' hr' => (h.ids_ne n r' hr' r hr).symm
    rw [Table.find?_of_mem hmem] at hfound
    exact (Table.find?_eq_some_iff.1 hfound).1
  due later hlater r hr hown := by
    have hdue := h.due later (List.mem_cons_of_mem _ hlater)
    have hfound := Table.find?_of_mem hr
    by_cases hdone : ∃ r' ∈ rows.take n, r'.id = r.id
    -- A row that was published is not claimable, and no row of the backlog was.
    · obtain ⟨r', hr', hid⟩ := hdone
      obtain ⟨claimed, time, hpublished⟩ := hdrained.published r' hr'
      rw [hid, hfound] at hpublished
      obtain rfl := Option.some.inj hpublished
      have hrest : (r'.claimed t.token claimed).published time ∉ rows.drop n := fun hmem =>
        h.ids_ne n r' hr' _ hmem rfl
      rw [decide_eq_false hrest]
      rfl
    · have hkept := hdrained.others_kept r.id fun r' hr' hid => hdone ⟨r', hr', hid⟩
      rw [hfound] at hkept
      have hsplit := List.mem_append (a := r) (s := rows.take n) (t := rows.drop n)
      rw [List.take_append_drop, or_iff_right fun hmem => hdone ⟨r, hmem, rfl⟩] at hsplit
      rw [hdue r (Table.find?_eq_some_iff.1 hkept.symm).1 hown]
      simp only [hsplit]
  fits r hr := h.fits r (List.mem_of_mem_drop hr)

theorem tick (h : Backlog relay t (now :: times) rows) (hfaults : env.Faultless)
    (hprompt : env.Prompt relay.publisher.limit) :
    let result := Round.outcome relay now env t
    let front := rows.take relay.config.batchSize
    result.1 = .ok (.clean front.length) ∧
      List.Forall₂ relay.publisher.Delivers front result.2.story.posts ∧ Drained t front result.2.table := by
  intro result front
  have hclaim := Table.claim_eq_queue relay.config.batchSize (.inr h.judged)
  rw [h.queue_eq] at hclaim
  obtain ⟨report, hreport, rfl, ⟨posts, hstory, hposts⟩, hpublished, hothers⟩ :=
    tickAt_publishes (s := { table := t }) hfaults hprompt (fun r hr => h.fits r (List.mem_of_mem_take hr)) hclaim
  have hposted : result.2.story.posts = posts := hstory
  refine ⟨hreport, hposted ▸ hposts, ?_, fun r hr => ?_, hothers⟩
  · change ((relay.tickAt now).run.runIn env { table := t }).2.table.token = t.token
    rw [table_runIn hfaults (relay.tickAt now).run (t := t) rfl, Table.token_run]
  · obtain ⟨time, hfound⟩ := hpublished r hr
    exact ⟨now, time, hfound⟩

end Backlog

/-- Ticks one after the other, each as of a time and in surroundings of its own: what each comes to and exchanges, and
the last table. -/
def tickAll (relay : Relay) : Table → List (Instant × Surroundings) → List (Except Interrupt Report × Story) × Table
  | t, [] => ([], t)
  | t, (now, env) :: rest =>
    let (result, s) := Round.outcome relay now env t
    let (others, last) := relay.tickAll s.table rest
    ((result, s.story) :: others, last)

theorem tickAll_cons (relay : Relay) (t : Table) (tick : Instant × Surroundings) (rest : List (Instant × Surroundings)) :
    relay.tickAll t (tick :: rest) =
      let first := Round.outcome relay tick.1 tick.2 t
      let others := relay.tickAll first.2.table rest
      ((first.1, first.2.story) :: others.1, others.2) := rfl

variable {ticks : List (Instant × Surroundings)} {rows : List Row}

/-- Each tick publishes the next rows of the backlog, as many as it has room for. -/
theorem Backlog.run (h : Backlog relay t (ticks.map Prod.fst) rows)
    (hhealthy : ∀ tick ∈ ticks, tick.2.Faultless ∧ tick.2.Prompt relay.publisher.limit) :
    let b := relay.config.batchSize
    (relay.tickAll t ticks).1.map Prod.fst =
      (List.range ticks.length).map (fun j => .ok (.clean (min b (rows.length - j * b)))) ∧
    List.Forall₂ relay.publisher.Delivers (rows.take (ticks.length * b))
      ((relay.tickAll t ticks).1.flatMap fun result => result.2.posts) ∧
    Drained t (rows.take (ticks.length * b)) (relay.tickAll t ticks).2 := by
  intro b
  induction ticks generalizing t rows with
  | nil =>
    rw [List.length_nil, Nat.zero_mul, List.take_zero]
    exact ⟨rfl, .nil, .nil t⟩
  | cons tick rest ih =>
    obtain ⟨⟨hfaults, hprompt⟩, hothers⟩ := List.forall_mem_cons.1 hhealthy
    obtain ⟨hresult, hposts, hdrained⟩ := h.tick hfaults hprompt
    obtain ⟨hresults, hposts', hdrained'⟩ := ih (h.after hdrained) hothers
    rw [tickAll_cons, List.length_cons, Nat.succ_mul, Nat.add_comm _ b, List.take_add]
    refine ⟨?_, List.rel_append hposts hposts', hdrained.trans hdrained' fun r hr r' hr' => ?_⟩
    · rw [List.map_cons, hresult, hresults, List.range_succ_eq_map, List.map_cons, List.map_map, List.length_take,
        List.length_drop, Nat.zero_mul, Nat.sub_zero]
      refine congrArg _ (List.map_congr_left fun j _ => ?_)
      rw [Function.comp_apply, Nat.succ_mul, Nat.add_comm (j * b), Nat.sub_sub]
    · exact h.ids_ne b r hr r' (List.mem_of_mem_take hr')

/-- A healthy relay drains its backlog, oldest first and exactly once. Let the rows of its partition that may be claimed
be the same at the times of all ticks, let each have a parcel, and say that no call fails and the broker takes every
parcel in time. Then each tick claims and publishes the next rows in order, as many as it has room for; each of these is
posted once and delivered, and stays published; and no other row changes. Once there have been as many ticks as the
backlog makes batches, all of its rows are published, and every later tick is idle. -/
theorem backlog_drained (h : Backlog relay t (ticks.map Prod.fst) rows)
    (hhealthy : ∀ tick ∈ ticks, tick.2.Faultless ∧ tick.2.Prompt relay.publisher.limit) :
    let b := relay.config.batchSize
    let n := rows.length
    let done := rows.take (ticks.length * b)
    let results := (relay.tickAll t ticks).1
    let last := (relay.tickAll t ticks).2
    (∀ j < ticks.length, (results.map Prod.fst)[j]? = some (.ok (.clean (min b (n - j * b))))) ∧
    List.Forall₂ relay.publisher.Delivers done (results.flatMap fun result => result.2.posts) ∧
    Drained t done last ∧
    (ticks ≠ [] → ∀ r ∈ rows, (∃ r', last.find? r.id = some r' ∧ r'.status = .published) ↔ r ∈ done) ∧
    (0 < b → (Count.groups n b ≤ ticks.length → done = rows) ∧
      ∀ j < ticks.length, Count.groups n b ≤ j → (results.map Prod.fst)[j]? = some (.ok {})) := by
  intro b n done results last
  obtain ⟨hresults, hposts, hdrained⟩ := h.run hhealthy
  have hreport (j : Nat) (hj : j < ticks.length) :
      (results.map Prod.fst)[j]? = some (.ok (.clean (min b (n - j * b)))) := by
    rw [hresults]
    simp [hj, b, n]
  refine ⟨hreport, hposts, hdrained, fun hsome r hr => ?_, fun hb => ⟨fun henough => ?_, fun j hj hover => ?_⟩⟩
  · constructor
    · rintro ⟨r', hfound, hpublished⟩
      by_contra hnot
      have hmem := (h.owned r hr).1
      have hkept := hdrained.find?_of_notMem (fun d hd => (h.owned d (List.mem_of_mem_take hd)).1) hmem hnot
      obtain rfl := Option.some.inj (hkept.symm.trans hfound)
      obtain ⟨tick, hticks⟩ := List.exists_mem_of_ne_nil ticks hsome
      have hdue := h.due tick.1 (List.mem_map_of_mem hticks) r hmem (h.owned r hr).2
      rw [Row.isClaimable?, hpublished, decide_eq_true hr] at hdue
      cases hdue
    · intro hdone
      obtain ⟨claimed, time, hfound⟩ := hdrained.published r hdone
      exact ⟨_, hfound, rfl⟩
  · exact List.take_of_length_le (Nat.le_trans (Count.le_groups_mul hb n) (Nat.mul_le_mul_right b henough))
  · have hover : n ≤ j * b := Nat.le_trans (Count.le_groups_mul hb n) (Nat.mul_le_mul_right b hover)
    rw [hreport j hj, Nat.sub_eq_zero_of_le hover, Nat.min_zero]
    rfl

/-- A relay with batches of two drains the rows of `mixed` in two ticks, and is idle in the third. -/
theorem mixed_drained :
    let relay : Relay := {
      config := { batchSize := 2, stuck := .ofSeconds 60 }, publisher := { chunk := 4, limit := .ofSeconds 1 }
      graveyard := { limit := .ofSeconds 1 } }
    let env : Surroundings := {
      now := fun _ => .epoch, elapsed := fun _ => 0, fault := fun _ _ => none, treat := fun _ _ _ => {} }
    let ticks : List (Instant × Surroundings) :=
      [({ nanos := 120000000000 }, env), ({ nanos := 121000000000 }, env), ({ nanos := 122000000000 }, env)]
    let rows := [2, 3, 1].filterMap Table.mixed.find?
    let drained := relay.tickAll Table.mixed ticks
    (drained.1.map Prod.fst)[1]? = some (.ok (.clean 1)) ∧ (drained.1.map Prod.fst)[2]? = some (.ok {}) ∧
      List.Forall₂ relay.publisher.Delivers rows (drained.1.flatMap fun result => result.2.posts) ∧
      ∀ r ∈ rows, ∃ r', drained.2.find? r.id = some r' ∧ r'.status = .published := by
  intro relay env ticks rows drained
  have hfits : ∀ r ∈ rows, (Message.ofRow r).isOk ∧
      (Topic.resolve relay.publisher.topicLead r.event.aggregateType).isOk := by decide +kernel
  have hbacklog : Backlog relay Table.mixed (ticks.map Prod.fst) rows :=
    ⟨by decide +kernel, by decide +kernel, by decide +kernel, fun r hr => ⟨(hfits r hr).1, (hfits r hr).2⟩⟩
  have hhealthy : ∀ tick ∈ ticks, tick.2.Faultless ∧ tick.2.Prompt relay.publisher.limit := by
    intro tick htick
    obtain rfl | rfl | rfl : tick = _ ∨ tick = _ ∨ tick = _ := by simpa [ticks] using htick
    all_goals exact ⟨fun _ _ => rfl, fun _ _ _ => ⟨rfl, Nat.zero_le _⟩⟩
  obtain ⟨hreports, hposts, -, hpublished, hfinite⟩ := backlog_drained hbacklog hhealthy
  obtain ⟨henough, hidle⟩ := hfinite (by decide)
  have hall : rows.take (ticks.length * relay.config.batchSize) = rows := henough (by decide +kernel)
  rw [hall] at hposts hpublished
  have hlength : rows.length = 3 := by decide +kernel
  have hsecond := hreports 1 (by decide)
  rw [hlength] at hsecond
  exact ⟨hsecond, hidle 2 (by decide) (by decide +kernel), hposts, fun r hr => (hpublished (by decide) r hr).2 hr⟩

end Outbox.Relay
