import Outbox.Proofs.Relay.Recovery
import Outbox.Proofs.Relay.Undelivered
import Outbox.Proofs.Store.Queue

/-! What a tick makes of the rows that it claimed, when nobody else is at the table and no call fails. The
ledger of a tick has an account for each claimed row, in their order: what was posted for it, why that failed
if it did, and how the row was left. A row is recorded by one mark, which finds it as the claim left it, since
the marks before were of other rows. -/

namespace Outbox.Relay

variable {env : Surroundings} {s s' : Scene} {relay : Relay} {fate : Delivery → Prop}

/-! ### Accounts -/

/-- How a claimed row is left that was recorded at a time, by what was posted for it and for its dead letter. It is
published if its delivery succeeded; to be tried again, with the text of the error, if that may pass and attempts are
left; and otherwise dead if its dead letter was delivered, or to be tried again with both texts if not. All else of the
row stays as the claim left it. -/
inductive Settled (relay : Relay) (row : Row) (time : Instant) :
    (posts letters : List (Parcel × Delivery)) → Row → Prop
  | published (parcel : Parcel) :
    Settled relay row time [(parcel, .delivered)] []
      { row with status := .published, lastError := none, updatedAt := time }
  | retried {posts : List (Parcel × Delivery)} {text : String}
    (hundelivered : relay.publisher.Undelivered row posts true text)
    (hleft : ∀ most, relay.policy.maxAttempts = some most → row.attempt.toNat < most) :
    Settled relay row time posts []
      { row with
        status := .failed, lastError := some (Cause.truncate text), updatedAt := time
        nextRetryAt := time.after (relay.policy.backoff (max row.attempt 1).toNat) }
  | deadLettered {posts : List (Parcel × Delivery)} {transient : Bool} {text : String}
    (hundelivered : relay.publisher.Undelivered row posts transient text)
    (hover : transient = false ∨ ∃ most, relay.policy.maxAttempts = some most ∧ most ≤ row.attempt.toNat)
    (now : Instant) :
    Settled relay row time posts
      [(⟨relay.graveyard.topic, Decimal.integerText row.id, (DeadLetter.ofRow row text now).text⟩, .delivered)]
      { row with status := .deadLettered, lastError := some (Cause.truncate text), updatedAt := time }
  | kept {posts : List (Parcel × Delivery)} {transient : Bool} {text problem : String} {delivery : Delivery}
    (hundelivered : relay.publisher.Undelivered row posts transient text)
    (hover : transient = false ∨ ∃ most, relay.policy.maxAttempts = some most ∧ most ≤ row.attempt.toNat)
    (now : Instant) (hproblem : relay.graveyard.Undelivered delivery problem) :
    Settled relay row time posts
      [(⟨relay.graveyard.topic, Decimal.integerText row.id, (DeadLetter.ofRow row text now).text⟩, delivery)]
      { row with
        status := .failed
        lastError := some (Cause.truncate (text ++ " (dead-letter publish failed: " ++ problem ++ ")"))
        updatedAt := time
        nextRetryAt := time.after (relay.policy.backoff (max row.attempt 1).toNat) }

/-- A sending with the dead letters that were posted for it, when the row was recorded, and how it was left. -/
structure Account (relay : Relay) extends Sending relay.publisher where
  letters : List (Parcel × Delivery)
  time : Instant
  final : Row
  settled : Settled relay row time posts letters final

/-- A row is published exactly if its one parcel was delivered, and no row is left being sent. -/
theorem Settled.status {row final : Row} {time : Instant} {posts letters : List (Parcel × Delivery)}
    (h : Settled relay row time posts letters final) :
    (final.status = .published ↔ ∃ parcel, posts = [(parcel, .delivered)]) ∧
      (final.status = .published ∨ final.status = .failed ∨ final.status = .deadLettered) := by
  cases h with
  | published parcel => exact ⟨⟨fun _ => ⟨parcel, rfl⟩, fun _ => rfl⟩, .inl rfl⟩
  | retried hundelivered | kept hundelivered =>
    refine ⟨iff_of_false Status.noConfusion ?_, .inr (.inl rfl)⟩
    rintro ⟨parcel, h⟩
    exact hundelivered.not_delivered parcel h
  | deadLettered hundelivered =>
    refine ⟨iff_of_false Status.noConfusion ?_, .inr (.inr rfl)⟩
    rintro ⟨parcel, h⟩
    exact hundelivered.not_delivered parcel h

theorem Account.isNone_failure (account : Account relay) :
    account.failure.isNone = (account.final.status == .published) := by
  rw [Bool.eq_iff_iff, beq_iff_eq, account.settled.status.1, ← account.failure_eq_none_iff, Option.isNone_iff_eq_none]

theorem length_ledger (ledger : List (Account relay)) :
    ledger.length = (ledger.countP fun account => account.final.status == .published) +
      (ledger.countP fun account => account.final.status == .failed) +
      ledger.countP fun account => account.final.status == .deadLettered := by
  induction ledger with
  | nil => rfl
  | cons account rest ih =>
    simp only [List.countP_cons, List.length_cons, ih]
    rcases account.settled.status.2 with h | h | h <;> simp [h] <;> omega

/-- A mark of the row of an id as of a time. -/
inductive Marks (id : Int) (time : Instant) : Request → Prop
  | published {ids : List Int} (h : id ∈ ids) : Marks id time (.markPublished ids time)
  | failed {cause : String} {delay : Span} : Marks id time (.markFailed id cause delay time)
  | deadLettered {cause : String} : Marks id time (.markDead id cause time)

/-- The row of an id was marked as of the time that the clock showed right before. -/
def Story.Records (story : Story) (id : Int) (time : Instant) : Prop :=
  ∃ request answer, Marks id time request ∧ [(⟨.ask request, .ok answer⟩ : Exchange), ⟨.now, time⟩] <:+: story

theorem Story.Records.mono {story later : Story} {id : Int} {time : Instant} (h : story.Records id time)
    (hlater : story <:+ later) : later.Records id time := by
  obtain ⟨request, answer, hmarks, hinfix⟩ := h
  exact ⟨request, answer, hmarks, hinfix.trans hlater.isInfix⟩

/-- The rows of accounts were recorded, and no others. -/
structure Closed (s : Scene) (ledger : List (Account relay)) (s' : Scene) : Prop where
  posts : s'.story.posts = s.story.posts ++ ledger.flatMap Account.letters
  suffix : s.story <:+ s'.story
  records : ∀ account ∈ ledger, s'.story.Records account.row.id account.time
  found : ∀ account ∈ ledger, s'.table.find? account.row.id = some account.final
  others : ∀ id, (∀ account ∈ ledger, account.row.id ≠ id) → s'.table.find? id = s.table.find? id

/-- The numbers of a report with those of accounts. -/
def Report.count (report : Report) (ledger : List (Account relay)) : Report :=
  { report with
    retried := report.retried + ledger.countP fun account => account.final.status == .failed
    deadLettered := report.deadLettered + ledger.countP fun account => account.final.status == .deadLettered }

theorem Closed.nil : Closed s ([] : List (Account relay)) s where
  posts := (List.append_nil _).symm
  suffix := List.suffix_rfl
  records _ h := absurd h List.not_mem_nil
  found _ h := absurd h List.not_mem_nil
  others _ _ := rfl

/-- Accounts of different rows are closed one after the other. -/
theorem Closed.cons {s₁ : Scene} {account : Account relay} {ledger : List (Account relay)}
    (h : Closed s [account] s₁) (h' : Closed s₁ ledger s') (hids : ∀ other ∈ ledger, other.row.id ≠ account.row.id) :
    Closed s (account :: ledger) s' where
  posts := by
    rw [h'.posts, h.posts, List.append_assoc, ← List.flatMap_append]
    rfl
  suffix := h.suffix.trans h'.suffix
  records := List.forall_mem_cons.2 ⟨(h.records account List.mem_cons_self).mono h'.suffix, h'.records⟩
  found := by
    refine List.forall_mem_cons.2 ⟨?_, h'.found⟩
    rw [h'.others _ hids, h.found account List.mem_cons_self]
  others id hid := by
    obtain ⟨hfirst, hrest⟩ := List.forall_mem_cons.1 hid
    rw [h'.others id hrest, h.others id (List.forall_mem_singleton.2 hfirst)]

theorem Closed.after {s₁ : Scene} {ledger : List (Account relay)} (h : Closed s₁ ledger s') (hposted : Posted s [] s₁) :
    Closed s ledger s' where
  posts := by rw [h.posts, hposted.posts, List.append_nil]
  suffix := hposted.suffix.trans h.suffix
  records := h.records
  found := h.found
  others id hid := by rw [h.others id hid, hposted.table]

theorem Report.count_cons (report : Report) (account : Account relay) (ledger : List (Account relay)) :
    (report.count [account]).count ledger = report.count (account :: ledger) := by
  simp only [Report.count, List.countP_cons, List.countP_nil]
  congr 1 <;> omega

/-! ### Recording failures -/

/-- The row of an id was marked as of a time, and no other. -/
structure Marked (s : Scene) (id : Int) (time : Instant) (final : Row) (s' : Scene) : Prop where
  story : ∃ request answer, Marks id time request ∧ s'.story = ⟨.ask request, .ok answer⟩ :: s.story
  found : s'.table.find? id = some final
  others : ∀ other, other ≠ id → s'.table.find? other = s.table.find? other

/-- A row is recorded once its letters are posted, the clock is read and it is marked. -/
theorem Marked.close {s₁ : Scene} {account : Account relay}
    (h : Marked s₁ account.row.id account.time account.final s') (hposted : Posted s account.letters s₁)
    (hread : [(⟨.now, account.time⟩ : Exchange)] <+: s₁.story) : Closed s [account] s' := by
  obtain ⟨request, answer, hmarks, hstory⟩ := h.story
  refine ⟨?_, ?_, List.forall_mem_singleton.2 ⟨request, answer, hmarks, ?_⟩, List.forall_mem_singleton.2 h.found,
    fun id hid => ?_⟩
  · rw [hstory, List.flatMap_singleton]
    exact hposted.posts
  · rw [hstory]
    exact hposted.suffix.trans (List.suffix_cons _ _)
  · rw [hstory]
    exact ((List.prefix_cons_inj _).2 hread).isInfix
  · rw [h.others id (List.forall_mem_singleton.1 hid).symm, hposted.table]

theorem marked_of_settle {row : Row} (hrow : s.table.find? row.id = some row) (hsending : row.status = .sending)
    {time : Instant} (f : Row → Row) (keeps : ∀ r, (f r).id = r.id) {request : Request} (answer : request.Answer)
    (hmarks : Marks row.id time request) :
    (s.table.settle row.id f keeps).1 = true ∧
      Marked s row.id time (f row) ⟨(s.table.settle row.id f keeps).2, ⟨.ask request, .ok answer⟩ :: s.story⟩ := by
  obtain ⟨hmarked, hfound, hothers⟩ := Table.settle_of_sending hrow hsending f keeps
  exact ⟨hmarked, ⟨request, answer, hmarks, rfl⟩, hfound, hothers⟩

theorem markFailed_yields (hfaults : env.Faultless) {row : Row} (hrow : s.table.find? row.id = some row)
    (hsending : row.status = .sending) (cause : String) (delay : Span) (time : Instant) :
    (Program.ask (.markFailed row.id cause delay time)).Yields env
      (fun marked s' => marked = true ∧ Marked s row.id time (row.failed cause delay time) s') s := by
  have hanswer : s.table.answer (.markFailed row.id cause delay time) =
      (.ok (s.table.markFailed row.id cause delay time).1, (s.table.markFailed row.id cause delay time).2) := rfl
  refine (Program.Interruptible.Yields.ask (hfaults _ _) hanswer).imp ?_
  rintro _ s' ⟨rfl, rfl⟩
  exact marked_of_settle hrow hsending (·.failed cause delay time) (·.id_failed cause delay time) _ .failed

theorem markDead_yields (hfaults : env.Faultless) {row : Row} (hrow : s.table.find? row.id = some row)
    (hsending : row.status = .sending) (cause : String) (time : Instant) :
    (Program.ask (.markDead row.id cause time)).Yields env
      (fun marked s' => marked = true ∧ Marked s row.id time (row.deadLettered cause time) s') s := by
  have hanswer : s.table.answer (.markDead row.id cause time) =
      (.ok (s.table.markDead row.id cause time).1, (s.table.markDead row.id cause time).2) := rfl
  refine (Program.Interruptible.Yields.ask (hfaults _ _) hanswer).imp ?_
  rintro _ s' ⟨rfl, rfl⟩
  exact marked_of_settle hrow hsending (·.deadLettered cause time) (·.id_deadLettered cause time) _ .deadLettered

/-- The broker does not crash on dead letters, and what becomes of one is as it is meant to. -/
def Surroundings.Receives (env : Surroundings) (g : Graveyard) (fate : Delivery → Prop) : Prop :=
  ∀ story failed now, ∃ delivery problem, env.deliver story false g.limit [g.letter failed now] = [delivery] ∧
    g.problem delivery = .ok problem ∧ fate delivery

/-- A dead letter is delivered, or there is a text that says why not. -/
theorem Surroundings.Spares.receives {g : Graveyard} (h : env.Spares g.topic) : env.Receives g fun _ => True := by
  intro story failed now
  let letter := g.letter failed now
  have hdelivery := Simulation.Flight.delivery_depart letter (env.treat story [letter] 0) 0 g.limit false
  have hdeliver : env.deliver story false g.limit [letter] = [_] := congrArg (fun d => [d]) hdelivery
  split at hdeliver
  · cases hending : (env.treat story [letter] 0).ending with
    | accept => rw [hending] at hdeliver; exact ⟨_, _, hdeliver, rfl, trivial⟩
    | refuse refusal => rw [hending] at hdeliver; exact ⟨_, _, hdeliver, rfl, trivial⟩
    | crash text => exact absurd hending (h story [letter] 0 letter text rfl rfl)
  · exact ⟨_, _, hdeliver, rfl, trivial⟩

theorem Graveyard.delivered_of_problem {g : Graveyard} {delivery : Delivery} (h : g.problem delivery = .ok none) :
    delivery = .delivered := by
  cases delivery with
  | delivered => rfl
  | refused | timedOut | crashed => cases h

theorem bury_yields (hfaults : env.Faultless) (hreceives : env.Receives relay.graveyard fate)
    {sending : Sending relay.publisher} {failure : Failure} (hfailure : sending.failure = some failure)
    (hrow : s.table.find? sending.row.id = some sending.row) (hsending : sending.row.status = .sending)
    (hover : failure.isTransient = false ∨
      ∃ most, relay.policy.maxAttempts = some most ∧ most ≤ sending.row.attempt.toNat) :
    (relay.graveyard.bury ⟨sending.row, failure, failure.isTransient⟩
      (relay.policy.delayAfter sending.row.attempt)).Yields env
      (fun burial s' => ∃ account : Account relay, account.toSending = sending ∧
        (∀ post ∈ account.letters, fate post.2) ∧ Closed s [account] s' ∧
        ∀ report : Report, report.addBurial burial = report.count [account]) s := by
  rw [Graveyard.bury]
  refine .bind (.lift now_yields) ?_
  rintro now s₁ ⟨h₁, -⟩
  refine .bind (.lift (deliver_yields _ _ _)) ?_
  rintro _ s₂ ⟨rfl, h₂⟩
  obtain ⟨delivery, problem, hdelivery, hproblem, hfate⟩ :=
    hreceives s₁.story ⟨sending.row, failure, failure.isTransient⟩ now
  rw [hdelivery] at h₂ ⊢
  have hposted := h₁.trans h₂
  refine .bind (.ofExcept hproblem) ?_
  rintro _ _ ⟨rfl, rfl⟩
  split
  · refine .bind (.lift now_yields) ?_
    rintro time s₃ ⟨h₃, hread⟩
    rw [Graveyard.delivered_of_problem hproblem] at hposted hfate
    have hposted' := hposted.trans h₃
    rw [← hposted'.table] at hrow
    refine .bind (markDead_yields hfaults hrow hsending _ _) ?_
    rintro _ s₄ ⟨rfl, hmarked⟩
    exact .pure ⟨⟨sending, _, time, _, .deadLettered (sending.undelivered hfailure) hover now⟩, rfl,
      List.forall_mem_singleton.2 hfate, hmarked.close hposted' hread, fun report => rfl⟩
  · next problem =>
    refine .bind (.lift now_yields) ?_
    rintro time s₃ ⟨h₃, hread⟩
    have hposted' := hposted.trans h₃
    rw [← hposted'.table] at hrow
    refine .bind (markFailed_yields hfaults hrow hsending _ _ _) ?_
    rintro _ s₄ ⟨rfl, hmarked⟩
    have hlost := Graveyard.undelivered_of_problem hproblem
    exact .pure ⟨⟨sending, _, time, _, .kept (sending.undelivered hfailure) hover now hlost⟩, rfl,
      List.forall_mem_singleton.2 hfate, hmarked.close hposted' hread, fun report => rfl⟩

theorem recordFailed_yields (hfaults : env.Faultless) (hreceives : env.Receives relay.graveyard fate)
    {sending : Sending relay.publisher} {failure : Failure} (hfailure : sending.failure = some failure)
    (hrow : s.table.find? sending.row.id = some sending.row) (hsending : sending.row.status = .sending)
    (report : Report) :
    (relay.recordFailed ⟨sending.row, failure, failure.isTransient⟩ report).Yields env
      (fun report' s' => ∃ account : Account relay, account.toSending = sending ∧
        (∀ post ∈ account.letters, fate post.2) ∧ Closed s [account] s' ∧
        report' = report.count [account]) s := by
  rw [recordFailed, FailedRow.disposition]
  refine .bind (.lift (note_yields _)) fun _ s₁ h₁ => ?_
  rcases relay.policy.disposition_cases failure.isTransient sending.row.attempt with
    ⟨hover, hdisposition⟩ | ⟨⟨htransient, hleft⟩, hdisposition⟩
  · rw [hdisposition]
    rw [← h₁.table] at hrow
    refine .bind (bury_yields hfaults hreceives hfailure hrow hsending hover) ?_
    rintro burial s₂ ⟨account, haccount, hfate, hclosed, hreport⟩
    exact .pure ⟨account, haccount, hfate, hclosed.after h₁, hreport report⟩
  · rw [hdisposition]
    refine .bind (.lift now_yields) ?_
    rintro time s₂ ⟨h₂, hread⟩
    have hposted := h₁.trans h₂
    rw [← hposted.table] at hrow
    refine .bind (markFailed_yields hfaults hrow hsending _ _ _) ?_
    rintro _ s₃ ⟨rfl, hmarked⟩
    have hundelivered := sending.undelivered hfailure
    rw [htransient] at hundelivered
    exact .pure ⟨⟨sending, _, time, _, .retried hundelivered hleft⟩, rfl, List.forall_mem_nil _,
      hmarked.close hposted hread, rfl⟩

/-! ### Recording a batch -/

/-- Where a sending stands before its row is recorded among the failures: a failed one is as it was claimed, and
the others were recorded before, at one time. -/
structure Sending.Stands (time : Instant) (s : Scene) (sending : Sending relay.publisher) : Prop where
  delivered : sending.failure = none →
    s.table.find? sending.row.id = some (sending.row.published time) ∧ s.story.Records sending.row.id time
  failed : ∀ failure, sending.failure = some failure →
    s.table.find? sending.row.id = some sending.row ∧ sending.row.status = .sending

theorem Sending.Stands.after {time : Instant} {s : Scene} {account : Account relay}
    {sending : Sending relay.publisher} (h : sending.Stands time s) (hclosed : Closed s [account] s')
    (hne : account.row.id ≠ sending.row.id) : sending.Stands time s' := by
  have hfound := hclosed.others sending.row.id (List.forall_mem_singleton.2 hne)
  refine ⟨fun hnone => ?_, fun failure hsome => ?_⟩
  · obtain ⟨hpublished, hrecords⟩ := h.delivered hnone
    exact ⟨hfound.trans hpublished, hrecords.mono hclosed.suffix⟩
  · obtain ⟨hclaimed, hsending⟩ := h.failed failure hsome
    exact ⟨hfound.trans hclaimed, hsending⟩

theorem recordAllFailed_yields (hfaults : env.Faultless) (hreceives : env.Receives relay.graveyard fate)
    {time : Instant} (sendings : List (Sending relay.publisher))
    (hids : (sendings.map fun sending => sending.row.id).Nodup)
    (hstand : ∀ sending ∈ sendings, sending.Stands time s) (report : Report) :
    (relay.recordAllFailed ((sendings.map Sending.outcome).filterMap failedRow?) report).Yields env
      (fun report' s' => ∃ ledger : List (Account relay), ledger.map Account.toSending = sendings ∧
        (∀ account ∈ ledger, ∀ post ∈ account.letters, fate post.2) ∧
        Closed s ledger s' ∧ report' = report.count ledger) s := by
  induction sendings generalizing s report with
  | nil => exact .pure ⟨[], rfl, List.forall_mem_nil _, .nil, rfl⟩
  | cons sending rest ih =>
    obtain ⟨hfirst, hrest⟩ := List.nodup_cons.1 hids
    obtain ⟨hstands, hothers⟩ := List.forall_mem_cons.1 hstand
    have hne (other) (hother : other ∈ rest) : other.row.id ≠ sending.row.id := fun heq =>
      hfirst (List.mem_map.2 ⟨other, hother, heq⟩)
    rw [List.map_cons, List.filterMap_cons]
    cases hfailure : sending.failure with
    | none =>
      obtain ⟨hfound, hrecords⟩ := hstands.delivered hfailure
      have hdelivered : failedRow? sending.outcome = none := by
        rw [Sending.outcome, hfailure]
        rfl
      obtain ⟨parcel, hposts⟩ := sending.failure_eq_none_iff.1 hfailure
      have hsettled : Settled relay sending.row time [(parcel, .delivered)] [] _ := .published parcel
      rw [← hposts] at hsettled
      let account : Account relay := ⟨sending, _, time, _, hsettled⟩
      have hclosed : Closed s [account] s := {
        posts := (List.append_nil _).symm
        suffix := List.suffix_rfl
        records := List.forall_mem_singleton.2 hrecords
        found := List.forall_mem_singleton.2 hfound
        others := fun _ _ => rfl }
      rw [hdelivered]
      refine (ih hrest hothers report).imp ?_
      rintro _ s₂ ⟨ledger, rfl, hfates, hledger, rfl⟩
      exact ⟨account :: ledger, rfl, List.forall_mem_cons.2 ⟨List.forall_mem_nil _, hfates⟩,
        hclosed.cons hledger fun other hother => hne _ (List.mem_map_of_mem hother), report.count_cons account ledger⟩
    | some failure =>
      obtain ⟨hrow, hsending⟩ := hstands.failed failure hfailure
      have hfailed : failedRow? sending.outcome = some ⟨sending.row, failure, failure.isTransient⟩ := by
        rw [Sending.outcome, hfailure]
        rfl
      rw [hfailed, recordAllFailed]
      refine .bind (recordFailed_yields hfaults hreceives hfailure hrow hsending report) ?_
      rintro _ s₁ ⟨account, rfl, hfate, hclosed, rfl⟩
      refine (ih hrest (fun other hother => (hothers other hother).after hclosed (hne other hother).symm) _).imp ?_
      rintro _ s₂ ⟨ledger, rfl, hfates, hledger, rfl⟩
      exact ⟨account :: ledger, rfl, List.forall_mem_cons.2 ⟨hfate, hfates⟩,
        hclosed.cons hledger fun other hother => hne _ (List.mem_map_of_mem hother), report.count_cons account ledger⟩

theorem recordDelivered_yields (hfaults : env.Faultless)
    (sendings : List (Sending relay.publisher)) (hids : (sendings.map fun sending => sending.row.id).Nodup)
    (hrows : ∀ sending ∈ sendings,
      s.table.find? sending.row.id = some sending.row ∧ sending.row.status = .sending) (claimed : Nat) :
    (recordDelivered ((sendings.map Sending.outcome).filterMap deliveredId?) { claimed := claimed }).Yields env
      (fun report s' => ∃ time, (∀ sending ∈ sendings, sending.Stands time s') ∧
        s'.story.posts = s.story.posts ∧ s.story <:+ s'.story ∧
        (∀ id, (∀ sending ∈ sendings, sending.row.id ≠ id) → s'.table.find? id = s.table.find? id) ∧
        report = {
          claimed := claimed, published := sendings.countP fun sending => sending.failure.isNone }) s := by
  rw [Sending.filterMap_deliveredId?, recordDelivered]
  split
  · next hempty =>
    rw [List.isEmpty_iff] at hempty
    refine .pure ⟨.epoch, fun sending hsending => ⟨fun hnone => ?_, fun _ _ => hrows sending hsending⟩, rfl,
      List.suffix_rfl, fun _ _ => rfl, ?_⟩
    · have hid := (Sending.mem_deliveredIds hids hsending).2 hnone
      rw [hempty] at hid
      cases hid
    · rw [← Sending.length_deliveredIds, hempty]
      rfl
  · refine .bind (.lift now_yields) ?_
    rintro time s₁ ⟨h₁, hread⟩
    rw [← h₁.table] at hrows
    have hcount := Table.fst_markPublished time (Sending.nodup_deliveredIds hids) fun id hid => by
      obtain ⟨sending, hsending, rfl⟩ := Sending.exists_of_mem_deliveredIds hid
      exact ⟨sending.row, hrows sending hsending⟩
    have hanswer : s₁.table.answer (.markPublished (Sending.deliveredIds sendings) time) =
        (.ok (s₁.table.markPublished time (Sending.deliveredIds sendings)).1,
          (s₁.table.markPublished time (Sending.deliveredIds sendings)).2) := rfl
    refine .bind (.ask (hfaults _ _) hanswer) ?_
    rintro _ s₂ ⟨rfl, rfl⟩
    rw [hcount, if_neg (Nat.lt_irrefl _)]
    refine .pure ⟨time, fun sending hsending => ?_, ?_, ?_, fun id hid => ?_, ?_⟩
    · obtain ⟨hrow, hstatus⟩ := hrows sending hsending
      have hmem := Sending.mem_deliveredIds hids hsending
      refine ⟨fun hnone => ⟨?_, ?_⟩, fun failure hsome => ⟨?_, hstatus⟩⟩
      · rw [Table.find?_markPublished, hrow, Option.map_some, if_pos ⟨hmem.2 hnone, hstatus⟩]
      · exact ⟨_, _, .published (hmem.2 hnone), ((List.prefix_cons_inj _).2 hread).isInfix⟩
      · rw [Table.find?_markPublished_of_notMem, hrow]
        rw [hmem, hsome]
        exact Option.some_ne_none failure
    · exact h₁.posts.trans (List.append_nil _)
    · exact h₁.suffix.trans (List.suffix_cons _ _)
    · rw [Table.find?_markPublished_of_notMem, h₁.table]
      intro hmem
      obtain ⟨sending, hsending, heq⟩ := Sending.exists_of_mem_deliveredIds hmem
      exact hid sending hsending heq
    · rw [Nat.sub_self, Sending.length_deliveredIds]

/-! ### Ticks -/

/-- What a tick makes of the rows that its claim returns. -/
theorem tickAt_yields_of_claim (hfaults : env.Faultless) (hreceives : env.Receives relay.graveyard fate)
    {now : Instant} {rows : List Row} {claimed : Table}
    (hclaim : s.table.claim relay.config.partition relay.config.batchSize now relay.config.stuck =
      some (rows, claimed)) :
    (relay.tickAt now).Yields env (fun report s' => ∃ ledger : List (Account relay),
      ledger.map (fun account => account.row) = rows ∧
      (∀ account ∈ ledger, ∀ post ∈ account.letters, fate post.2) ∧
      s'.story.posts = s.story.posts ++ ledger.flatMap (fun account => account.posts) ++
        ledger.flatMap Account.letters ∧
      (∀ account ∈ ledger, s'.story.Records account.row.id account.time ∧
        s'.table.find? account.row.id = some account.final) ∧
      (∀ id, (∀ row ∈ rows, row.id ≠ id) → s'.table.find? id = s.table.find? id) ∧
      report = {
        claimed := rows.length
        published := ledger.countP fun account => account.final.status == .published
        retried := ledger.countP fun account => account.final.status == .failed
        deadLettered := ledger.countP fun account => account.final.status == .deadLettered }) s := by
  rw [tickAt]
  refine .bind (.ask (hfaults _ _) (Table.answer_claim hclaim)) ?_
  rintro _ s₁ ⟨rfl, rfl⟩
  split
  · next hempty =>
    rw [List.isEmpty_iff] at hempty
    subst hempty
    refine .pure ⟨[], rfl, List.forall_mem_nil _, ?_, fun _ h => absurd h List.not_mem_nil, fun id hid => ?_, rfl⟩
    · rw [List.flatMap_nil, List.flatMap_nil, List.append_nil, List.append_nil]
      rfl
    · exact Table.find?_after_claim_of_notMem hclaim hid
  · have hany : env.Carries relay.publisher fun _ => True := fun _ _ _ _ => trivial
    refine .bind (.lift (process_yields hany _)) ?_
    rintro _ s₂ ⟨sendings, rfl, rfl, -, hposted⟩
    have hids : (sendings.map fun sending => sending.row.id).Nodup := by
      have := Table.nodup_claim hclaim
      rwa [List.map_map] at this
    have hstart (sending) (hsending : sending ∈ sendings) :
        s₂.table.find? sending.row.id = some sending.row ∧ sending.row.status = .sending := by
      obtain ⟨before, -, -, hrow, hfound⟩ := Table.find?_after_claim hclaim (List.mem_map_of_mem hsending)
      rw [hposted.table]
      exact ⟨hfound, by rw [hrow]; rfl⟩
    refine .bind (recordDelivered_yields hfaults sendings hids hstart _) ?_
    rintro _ s₃ ⟨time, hstands, hposts, -, hothers, rfl⟩
    refine (recordAllFailed_yields hfaults hreceives sendings hids hstands _).imp ?_
    rintro _ s₄ ⟨ledger, rfl, hfates, hclosed, rfl⟩
    refine ⟨ledger, List.map_map.symm, hfates, ?_, fun account haccount => ⟨hclosed.records account haccount,
      hclosed.found account haccount⟩, fun id hid => ?_, ?_⟩
    · rw [hclosed.posts, hposts, hposted.posts, List.flatMap_map]
      rfl
    · have hledger (account) (haccount : account ∈ ledger) : account.row.id ≠ id :=
        hid _ (List.mem_map_of_mem (List.mem_map_of_mem haccount))
      rw [hclosed.others id hledger, hothers id (List.forall_mem_map.2 hledger), hposted.table]
      exact Table.find?_after_claim_of_notMem hclaim hid
    · simp only [Report.count, Nat.zero_add, List.countP_map]
      congr 1
      exact List.countP_congr fun account _ => by rw [Function.comp, account.isNone_failure]

theorem tickAt_yields (hfaults : env.Faultless) (hspares : env.Spares relay.graveyard.topic) {now : Instant}
    (hdate : (now.minus? relay.config.stuck).isSome) :
    (relay.tickAt now).Yields env (fun report s' => ∃ rows claimed, ∃ ledger : List (Account relay),
      s.table.claim relay.config.partition relay.config.batchSize now relay.config.stuck = some (rows, claimed) ∧
      ledger.map (fun account => account.row) = rows ∧
      s'.story.posts = s.story.posts ++ ledger.flatMap (fun account => account.posts) ++
        ledger.flatMap Account.letters ∧
      (∀ account ∈ ledger, s'.story.Records account.row.id account.time ∧
        s'.table.find? account.row.id = some account.final) ∧
      (∀ id, (∀ row ∈ rows, row.id ≠ id) → s'.table.find? id = s.table.find? id) ∧
      report = {
        claimed := rows.length
        published := ledger.countP fun account => account.final.status == .published
        retried := ledger.countP fun account => account.final.status == .failed
        deadLettered := ledger.countP fun account => account.final.status == .deadLettered }) s := by
  obtain ⟨⟨rows, claimed⟩, hclaim⟩ := Option.isSome_iff_exists.1
    (Table.claim_isSome hdate s.table relay.config.partition relay.config.batchSize)
  refine (tickAt_yields_of_claim hfaults hspares.receives hclaim).imp ?_
  rintro report s' ⟨ledger, hrows, -, hrest⟩
  exact ⟨rows, claimed, ledger, hclaim, hrows, hrest⟩

/-- A tick settles every row that it claims and changes no other, whatever the broker does short of a crash on the
topic for dead letters, if no call fails. It ends with a report. Each claimed row has an account: it was
posted once if its parcel can be made, and left by a mark, as of the time that the clock showed right before, as
its deliveries demand; in particular it is published exactly if its parcel was delivered, and it is not being
sent any more. The tick posts the parcels of all rows and then the letters, in the order of the rows. The report
counts the rows by how they were left, and none is skipped. -/
theorem tickAt_settles (relay : Relay) (t : Table) (now : Instant) (env : Surroundings) (hfaults : env.Faultless)
    (hspares : env.Spares relay.graveyard.topic) (hdate : (now.minus? relay.config.stuck).isSome) :
    ∃ rows claimed report, ∃ ledger : List (Account relay),
      let result := (relay.tickAt now).run.runIn env { table := t }
      t.claim relay.config.partition relay.config.batchSize now relay.config.stuck = some (rows, claimed) ∧
      result.1 = .ok report ∧
      (∀ id, (∀ row ∈ rows, row.id ≠ id) → result.2.table.find? id = t.find? id) ∧
      ledger.map (fun account => account.row) = rows ∧
      (∀ account ∈ ledger, result.2.table.find? account.row.id = some account.final ∧
        result.2.story.Records account.row.id account.time ∧
        Settled relay account.row account.time account.posts account.letters account.final ∧
        account.final.status ≠ .sending ∧
        (account.final.status = .published ↔ ∃ parcel, account.posts = [(parcel, .delivered)])) ∧
      result.2.story.posts = ledger.flatMap (fun account => account.posts) ++ ledger.flatMap Account.letters ∧
      report.claimed = rows.length ∧ report.skipped = 0 ∧
      report.published = (ledger.countP fun account => account.final.status == .published) ∧
      report.retried = (ledger.countP fun account => account.final.status == .failed) ∧
      report.deadLettered = (ledger.countP fun account => account.final.status == .deadLettered) ∧
      report.claimed = report.published + report.retried + report.deadLettered := by
  obtain ⟨report, hreport, rows, claimed, ledger, hclaim, hrows, hposts, haccounts, hothers, rfl⟩ :=
    tickAt_yields hfaults hspares hdate (s := { table := t })
  refine ⟨rows, claimed, _, ledger, hclaim, hreport, hothers, hrows, fun account haccount => ?_, hposts, rfl, rfl, rfl,
    rfl, rfl, ?_⟩
  · obtain ⟨hrecords, hfound⟩ := haccounts account haccount
    refine ⟨hfound, hrecords, account.settled, ?_, account.settled.status.1⟩
    rcases account.settled.status.2 with h | h | h <;> rw [h] <;> decide
  · rw [← length_ledger, ← hrows, List.length_map]

/-- A table with five rows: the third was sent once before, the payload of the fourth is not JSON, and the last is not
yet due at the epoch. -/
def assorted : Table where
  rows :=
    let event (id : Int) (aggregateId : String) (payload : Bytes) : Event :=
      { id, aggregateType := "Order", aggregateId, kind := "OrderPlaced", payload, createdAt := .epoch }
    [.pending (event 1 "quick" [123, 125]), .pending (event 2 "refused" [123, 125]),
      { Row.pending (event 3 "slow" [123, 125]) with attempt := 1 }, .pending (event 4 "torn" [120]),
      { Row.pending (event 5 "early" [123, 125]) with nextRetryAt := .after .epoch (.ofMillis 1) }]
  ascending := by decide

theorem claim_assorted : assorted.claim .whole 100 .epoch (.ofSeconds 600) =
    some ((assorted.rows.take 4).map (·.claimed ⟨0⟩ .epoch), assorted.hand (assorted.rows.take 4) .epoch) := by
  have hdue : ∀ r ∈ assorted.rows, r ∈ assorted.rows.take 4 ↔
      Partition.whole.owns r.id ∧ r.isClaimable? .epoch (.ofSeconds 600) = some true := by decide +kernel
  have hqueue : assorted.queue .whole .epoch (.ofSeconds 600) = assorted.rows.take 4 :=
    Table.queue_eq (by decide +kernel) fun r =>
      ⟨fun hr => ⟨List.mem_of_mem_take hr, (hdue r (List.mem_of_mem_take hr)).1 hr⟩, fun ⟨hr, h⟩ => (hdue r hr).2 h⟩
  rw [Table.claim_eq_queue 100 (.inr (Table.judged_of_date (by decide) _ _)), hqueue]
  rfl

/-- A broker, one second after the epoch, that is down for one key, too slow for another, and does not take the dead
letter of the fourth row. -/
def moody : Surroundings where
  now _ := .after .epoch (.ofSeconds 1)
  elapsed _ := 0
  fault _ _ := none
  treat _ parcels place :=
    let key := (parcels.getD place default).key
    if key = "refused" then { ending := .refuse (.unavailable "down") }
    else if key = "slow" then { delay := 1001 }
    else if key = "4" then { ending := .refuse (.rejected "full") }
    else {}

theorem moody_spares (topic : String) : moody.Spares topic := by
  intro story parcels place parcel text _ _
  simp only [moody]
  split_ifs <;> simp

/-- A relay that sends every event twice at most. -/
def persistent : Relay where
  publisher := { chunk := 2, limit := .ofSeconds 1 }
  graveyard := { limit := .ofSeconds 1 }
  policy := { maxAttempts := some 2 }

/-- Of the rows of `assorted`, the first is published, the second is to be tried again, the third is given up, the
fourth is kept because its dead letter is refused, and the last is not claimed. -/
theorem assorted_tick_settles :
    let result := (persistent.tickAt .epoch).run.runIn moody { table := assorted }
    ∃ report, ∃ ledger : List (Account persistent), result.1 = .ok report ∧
      report = { claimed := 4, published := 1, retried := 2, deadLettered := 1, skipped := 0 } ∧
      ledger.map (fun account => account.row.id) = [1, 2, 3, 4] ∧
      (∀ account ∈ ledger, result.2.table.find? account.row.id = some account.final ∧
        Settled persistent account.row account.time account.posts account.letters account.final) ∧
      (result.2.table.rows.map fun r =>
          (r.id, r.status, r.attempt, r.lastError, r.updatedAt.nanos, r.nextRetryAt.nanos)) =
        [(1, .published, 1, none, 1000000000, 0),
          (2, .failed, 1, some "Broker unavailable: down", 1000000000, 6000000000),
          (3, .deadLettered, 2, some "Publish timed out after 1s", 1000000000, 0),
          (4, .failed, 1, some ("Serialization failed: expected value at line 1 column 1" ++
            " (dead-letter publish failed: Message rejected: full)"), 1000000000, 6000000000),
          (5, .pending, 0, none, 0, 1000000)] := by
  intro result
  obtain ⟨rows, claimed, report, ledger, hclaim, hreport, -, hrows, haccounts, -⟩ :=
    tickAt_settles persistent assorted .epoch moody (fun _ _ => rfl) (moody_spares _) rfl
  obtain ⟨rfl, rfl⟩ := Prod.mk.inj (Option.some.inj (claim_assorted.symm.trans hclaim))
  have hanswer : moody.answer { table := assorted } (.ask (persistent.claim .epoch).request) = (.ok _, _) :=
    Table.answer_claim claim_assorted
  have hrun := runIn_tickAt_ok hanswer
  refine ⟨report, ledger, hreport, ?_, ?_, fun account haccount => ?_, ?_⟩
  · have hevaluated : ((persistent.tickAt .epoch).run.runIn moody { table := assorted }).1 =
        .ok { claimed := 4, published := 1, retried := 2, deadLettered := 1, skipped := 0 } := by
      rw [hrun]
      decide +kernel
    exact Except.ok.inj (hreport.symm.trans hevaluated)
  · have hids := congrArg (List.map Row.id) hrows
    rw [List.map_map] at hids
    exact hids.trans (by decide +kernel)
  · obtain ⟨hfound, -, hsettled, -⟩ := haccounts account haccount
    exact ⟨hfound, hsettled⟩
  · change ((persistent.tickAt .epoch).run.runIn moody { table := assorted }).2.table.rows.map _ = _
    rw [hrun]
    decide +kernel

end Outbox.Relay
