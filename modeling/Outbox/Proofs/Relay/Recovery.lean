import Outbox.Proofs.Relay.Custody
import Outbox.Proofs.Relay.Posting
import Outbox.Proofs.Store.History

/-! A tick that a fault ends leaves nothing that cannot be recovered. Until the fault the tick does what it would
have done without one, and afterwards it does nothing. So a row that it claimed is either recorded already, and
then for good, or it is still as the claim left it, and is claimed again once its owner has been silent for long
enough. -/

namespace Outbox

/-- A claim with room for all rows gets a row of its partition back that is being sent, exactly if its owner has been
silent for longer than the threshold. -/
theorem Table.hands_sending_iff {t : Table} {row : Row} {id : Int} {p : Partition} {limit : Nat}
    (hrow : t.find? id = some row) (hsending : row.status = .sending) (hown : p.owns id) (hroom : t.size ≤ limit)
    (later : Instant) (stuck : Span) :
    t.Hands (.claim p limit later stuck) id ↔ row.updatedAt.nanos < later.nanos - stuck.shift.nanos := by
  constructor
  · exact SentAt.lt_of_hands ⟨row, hrow, hsending, rfl⟩
  · intro hlt
    have hdue := (Row.isClaimable?_sending hsending later stuck).2 hlt
    have hdate : (later.minus? stuck).isSome := by
      rw [Row.isClaimable?, hsending] at hdue
      exact Option.isSome_iff_exists.2 ((Option.map_eq_some_iff.1 hdue).imp fun _ h => h.1)
    obtain ⟨answer, hanswer, hmem⟩ := exists_claimed hrow hown hdue hdate hroom
    exact ⟨answer, hanswer, _, hmem, (row.id_claimed _ _).trans (id_of_find? hrow)⟩

namespace Relay

/-- The same surroundings if no call failed. -/
def Surroundings.faultless (env : Surroundings) : Surroundings := { env with fault := fun _ _ => none }

/-- The rows that are held stand in the table as they were claimed. -/
def Story.Stands (story : Story) (t : Table) : Prop := ∀ row, story.Holds row → t.find? row.id = some row

variable {relay : Relay} {env : Surroundings} {story : Story} {t : Table} {action : Action} {id : Int}

/-! ### One action -/

theorem Closing.claimed_eq_nil (h : relay.Closing story action) (answer : action.Answer) :
    Exchange.claimed ⟨action, answer⟩ = [] := by
  cases action with
  | ask request =>
    cases request with
    | claim => cases h.2.1
    | save | markPublished | markFailed | markDead | counts => rfl
  | now | elapsed | deliver | note => rfl

/-- An action changes only rows that are held. -/
theorem Closing.find?_answer (h : relay.Closing story action) (env : Surroundings) (t : Table)
    (hid : ∀ row, story.Holds row → row.id ≠ id) : (env.answer ⟨t, story⟩ action).2.find? id = t.find? id := by
  cases action with
  | ask request =>
    obtain ⟨-, hmark, -, hholds⟩ := h
    rw [Surroundings.answer]
    split
    · rfl
    · refine Table.find?_after_mark_of_notMem hmark fun hmem => ?_
      obtain ⟨row, hrow, hsame⟩ := hholds id hmem
      exact hid row hrow hsame
  | now | elapsed | deliver | note => rfl

theorem Closing.stands (h : relay.Closing story action) (env : Surroundings) (hstands : story.Stands t) :
    Story.Stands (⟨action, (env.answer ⟨t, story⟩ action).1⟩ :: story) (env.answer ⟨t, story⟩ action).2 := by
  intro row hrow
  have hheld := hstands row (hrow.of_cons (h.claimed_eq_nil _)).1
  cases action with
  | ask request =>
    obtain ⟨-, hmark, hids, -⟩ := h
    obtain ⟨a, ha, -⟩ := Table.tally_answer hmark hids t
    rw [Surroundings.answer] at hrow ⊢
    split at hrow
    · exact hheld
    · refine (Table.find?_after_mark_of_notMem hmark fun hmem => hrow.2 ?_).trans hheld
      rw [ha]
      exact List.mem_append_left _ hmem
  | now | elapsed | deliver | note => exact hheld

/-! ### Programs -/

variable {α : Type} {x : Program α} {post : α → Story → Prop}

/-- A program changes only rows that are held at its start. -/
theorem Closing.find?_runIn (hx : x.Abides (fun _ => True) relay.Closing post story)
    (hid : ∀ row, story.Holds row → row.id ≠ id) : (x.runIn env ⟨t, story⟩).2.table.find? id = t.find? id := by
  induction x generalizing story t with
  | done a => rfl
  | act action next ih =>
    rw [Program.runIn_act, ih _ (hx.2 _ trivial) fun row hrow => hid row (hrow.of_cons (hx.1.claimed_eq_nil _)).1]
    exact hx.1.find?_answer env t hid

/-- Nothing is done after a call that failed. -/
theorem Closing.eq_done (hx : x.Abides (fun _ => True) relay.Closing post story) (hbroken : ¬story.Unbroken) :
    ∃ a, x = .done a := by
  cases x with
  | done a => exact ⟨a, rfl⟩
  | act action next => exact absurd hx.1.1 hbroken

/-- A row is left as it would have been if no call failed, or it is held and still as it was claimed. -/
def Recoverable (story : Story) (id : Int) (left whole : Table) : Prop :=
  left.find? id = whole.find? id ∨ ∃ row, story.Holds row ∧ row.id = id ∧ left.find? id = some row

theorem Closing.recoverable (hx : x.Abides (fun _ => True) relay.Closing post story) (hstands : story.Stands t)
    (id : Int) :
    Recoverable story id (x.runIn env ⟨t, story⟩).2.table (x.runIn env.faultless ⟨t, story⟩).2.table := by
  induction x generalizing story t with
  | done a => exact .inl rfl
  | act action next ih =>
    have hsame (h : env.answer ⟨t, story⟩ action = env.faultless.answer ⟨t, story⟩ action) :
        Recoverable story id ((Program.act action next).runIn env ⟨t, story⟩).2.table
          ((Program.act action next).runIn env.faultless ⟨t, story⟩).2.table := by
      rw [Program.runIn_act, Program.runIn_act, ← h]
      refine (ih _ (hx.2 _ trivial) (hx.1.stands env hstands)).imp_right ?_
      rintro ⟨row, hrow, hrest⟩
      exact ⟨row, (hrow.of_cons (hx.1.claimed_eq_nil _)).1, hrest⟩
    cases action with
    | now | elapsed | deliver | note => exact hsame rfl
    | ask request =>
      cases hfault : env.fault story request with
      | none => exact hsame (by rw [Surroundings.answer, hfault]; rfl)
      | some fault =>
        have hend : ((Program.act (.ask request) next).runIn env ⟨t, story⟩).2.table = t := by
          obtain ⟨a, ha⟩ := eq_done (hx.2 (.error (.fault fault)) trivial) fun h => h _ List.mem_cons_self trivial
          rw [Program.runIn_act, Surroundings.answer, hfault]
          dsimp only
          rw [ha]
          rfl
        by_cases hheld : ∃ row, story.Holds row ∧ row.id = id
        · obtain ⟨row, hrow, rfl⟩ := hheld
          exact .inr ⟨row, hrow, rfl, by rw [hend, hstands row hrow]⟩
        · refine .inl ?_
          rw [hend, find?_runIn hx fun row hrow hid => hheld ⟨row, hrow, hid⟩]

/-! ### Ticks -/

/-- What a tick claims. -/
def claim (relay : Relay) (now : Instant) : Claim :=
  ⟨relay.config.partition, relay.config.batchSize, now, relay.config.stuck⟩

/-- A tick is its claim, and then the work on what that returns. -/
theorem runIn_tickAt (relay : Relay) (now : Instant) (env : Surroundings) (s : Scene) :
    (relay.tickAt now).run.runIn env s =
      Program.runIn env (ExceptT.bindCont relay.work (env.answer s (.ask (relay.claim now).request)).1)
        ⟨(env.answer s (.ask (relay.claim now).request)).2,
          ⟨.ask (relay.claim now).request, (env.answer s (.ask (relay.claim now).request)).1⟩ :: s.story⟩ := rfl

theorem runIn_tickAt_error {s : Scene} {now : Instant} {e : Interrupt}
    (h : env.answer s (.ask (relay.claim now).request) = (.error e, t)) :
    (relay.tickAt now).run.runIn env s =
      (.error e, ⟨t, ⟨.ask (relay.claim now).request, .error e⟩ :: s.story⟩) := by
  rw [runIn_tickAt, h]
  rfl

theorem runIn_tickAt_ok {s : Scene} {now : Instant} {rows : List Row}
    (h : env.answer s (.ask (relay.claim now).request) = (.ok rows, t)) :
    (relay.tickAt now).run.runIn env s =
      (relay.work rows).run.runIn env ⟨t, ⟨.ask (relay.claim now).request, .ok rows⟩ :: s.story⟩ := by
  rw [runIn_tickAt, h]
  rfl

/-- A tick changes no row that it did not claim, and leaves those that it claimed as if no call had failed, or as they
were claimed. -/
theorem runIn_work {now : Instant} {rows : List Row} {claimed : Table}
    (hclaim : t.claim relay.config.partition relay.config.batchSize now relay.config.stuck = some (rows, claimed))
    (env : Surroundings) :
    let s : Scene := ⟨claimed, [⟨.ask (relay.claim now).request, .ok rows⟩]⟩
    let left := ((relay.work rows).run.runIn env s).2.table
    let whole := ((relay.work rows).run.runIn env.faultless s).2.table
    (∀ id, (∀ row ∈ rows, row.id ≠ id) → left.find? id = t.find? id) ∧
      ∀ row ∈ rows, left.find? row.id = whole.find? row.id ∨ left.find? row.id = some row := by
  have hheld (row : Row) : Story.Holds [⟨.ask (relay.claim now).request, .ok rows⟩] row ↔ row ∈ rows := by
    simp [Story.Holds, Story.claimed, Story.marked, Exchange.claimed, Exchange.marked, Relay.claim, Claim.request,
      Request.targets]
  have hwork : (relay.work rows).Abides (fun _ => True) relay.Closing relay.Alarmed _
      [⟨.ask (relay.claim now).request, .ok rows⟩] :=
    work_abides (List.forall_mem_singleton.2 id) (fun row hrow => (hheld row).2 hrow) (Table.nodup_claim hclaim)
      (Table.length_claim_le hclaim) rfl rfl
  refine ⟨fun id hid => ?_, fun row hrow => ?_⟩
  · rw [Closing.find?_runIn hwork fun row hrow => hid row ((hheld row).1 hrow)]
    exact Table.find?_after_claim_of_notMem hclaim hid
  · have hstands : Story.Stands [⟨.ask (relay.claim now).request, .ok rows⟩] claimed := fun other hother => by
      obtain ⟨-, -, -, -, hfound⟩ := Table.find?_after_claim hclaim ((hheld other).1 hother)
      exact hfound
    refine (Closing.recoverable hwork hstands row.id).imp_right ?_
    rintro ⟨other, hother, hid, hfound⟩
    rwa [List.inj_on_of_nodup_map (Table.nodup_claim hclaim) ((hheld other).1 hother) hrow hid] at hfound

/-- A tick that a fault ends leaves only rows that can be recovered, whatever the broker does and whichever calls
fail. If the claim failed, the table is as it was and nothing was posted. Otherwise no row is changed that was not
claimed; and each claimed row is either as the tick would have left it if no call had failed, or just as the claim
returned it, being sent since the time of the claim. Such a row can be claimed exactly if that time lies further back
than the threshold, which counts as a century if it is too long for a date to be moved by it; and then a claim that
has room for it gets it. -/
theorem failed_tick_recoverable (relay : Relay) (t : Table) (now : Instant) (env : Surroundings) (fault : StoreFault)
    (h : ((relay.tickAt now).run.runIn env { table := t }).1 = .error (.fault fault)) :
    let failed := ((relay.tickAt now).run.runIn env { table := t }).2
    let whole := ((relay.tickAt now).run.runIn env.faultless { table := t }).2
    (env.fault [] (relay.claim now).request = some fault ∧ failed.table = t ∧ failed.story.posts = []) ∨
    ∃ rows claimed, env.fault [] (relay.claim now).request = none ∧
      t.claim relay.config.partition relay.config.batchSize now relay.config.stuck = some (rows, claimed) ∧
      (∀ id, (∀ row ∈ rows, row.id ≠ id) → failed.table.find? id = t.find? id) ∧
      ∀ row ∈ rows, failed.table.find? row.id = whole.table.find? row.id ∨
        (failed.table.find? row.id = some row ∧ row.status = .sending ∧ row.updatedAt = now ∧
          ∀ p later stuck, p.owns row.id →
            (row.isClaimable? later stuck = some true ↔ now.nanos < later.nanos - stuck.shift.nanos) ∧
            ∀ limit, failed.table.size ≤ limit →
              (failed.table.Hands (.claim p limit later stuck) row.id ↔
                now.nanos < later.nanos - stuck.shift.nanos)) := by
  intro failed whole
  cases hfault : env.fault [] (relay.claim now).request with
  | some first =>
    have hanswer : env.answer { table := t } (.ask (relay.claim now).request) = (.error (.fault first), t) := by
      rw [Surroundings.answer, hfault]
    rw [runIn_tickAt_error hanswer] at h
    cases h
    have hfailed : failed = ⟨t, [⟨.ask (relay.claim now).request, .error (.fault fault)⟩]⟩ :=
      congrArg Prod.snd (runIn_tickAt_error hanswer)
    exact .inl ⟨rfl, by rw [hfailed], by rw [hfailed]; rfl⟩
  | none =>
    have hanswer : env.answer { table := t } (.ask (relay.claim now).request) = t.answer (relay.claim now).request := by
      rw [Surroundings.answer, hfault]
    cases hclaim : t.claim relay.config.partition relay.config.batchSize now relay.config.stuck with
    | none =>
      -- Without an answer the claim crashes, which is no fault.
      have hcrash : t.answer (relay.claim now).request = (.error (.crash Row.dateOverflow), t) := by
        simp only [Relay.claim, Claim.request, Table.answer, hclaim]
      rw [runIn_tickAt_error (hanswer.trans hcrash)] at h
      cases h
    | some answer =>
      obtain ⟨rows, claimed⟩ := answer
      have hrows : t.answer (relay.claim now).request = (.ok rows, claimed) := by
        simp only [Relay.claim, Claim.request, Table.answer, hclaim]
      have hfailed : failed = ((relay.work rows).run.runIn env _).2 :=
        congrArg Prod.snd (runIn_tickAt_ok (hanswer.trans hrows))
      have hwhole : whole = ((relay.work rows).run.runIn env.faultless _).2 :=
        congrArg Prod.snd (runIn_tickAt_ok hrows)
      obtain ⟨hothers, hclaimed⟩ := runIn_work hclaim env
      refine .inr ⟨rows, claimed, rfl, rfl, by rw [hfailed]; exact hothers, fun row hrow => ?_⟩
      rw [hfailed, hwhole]
      refine (hclaimed row hrow).imp_right fun hfound => ?_
      obtain ⟨before, -, -, rfl, -⟩ := Table.find?_after_claim hclaim hrow
      refine ⟨hfound, rfl, rfl, fun p later stuck hown => ⟨Row.isClaimable?_sending rfl later stuck, ?_⟩⟩
      exact fun limit hroom => Table.hands_sending_iff hfound rfl hown hroom later stuck

/-- A store that marks nothing, and a broker that takes everything. -/
def markless : Surroundings where
  now _ := .epoch
  elapsed _ := 0
  fault _ request := if request.isMark then some (.database .poolTimedOut) else none
  treat _ _ _ := {}

/-- The row of `Table.single` is posted but cannot be marked; it is claimed again after ten minutes. -/
theorem single_tick_recoverable :
    let relay : Relay := { publisher := { chunk := 4, limit := .ofSeconds 1 }, graveyard := { limit := .ofSeconds 1 } }
    let failed := ((relay.tickAt .epoch).run.runIn markless { table := Table.single }).2.table
    failed.Hands (.claim .whole 1 { nanos := 600000000001 } (.ofSeconds 600)) 1 ∧
      ¬failed.Hands (.claim .whole 1 { nanos := 600000000000 } (.ofSeconds 600)) 1 := by
  intro relay failed
  have hfault : ((relay.tickAt .epoch).run.runIn markless { table := Table.single }).1 =
      .error (.fault (.database .poolTimedOut)) := by decide +kernel
  obtain ⟨hfailed, -⟩ | ⟨rows, claimed, -, hclaim, -, hrows⟩ :=
    failed_tick_recoverable relay Table.single .epoch markless _ hfault
  · cases hfailed
  · have hclaimed : ∀ answer ∈ Table.single.claim .whole 100 .epoch (.ofSeconds 600), ∃ row ∈ answer.1, row.id = 1 := by
      decide +kernel
    obtain ⟨row, hrow, hid⟩ := hclaimed _ hclaim
    obtain hsame | ⟨-, -, -, hagain⟩ := hrows row hrow
    · rw [hid] at hsame
      exact absurd hsame (by decide +kernel)
    · have hlater (later : Instant) :=
        (hagain .whole later (.ofSeconds 600) (by rw [hid]; decide)).2 1 (by decide +kernel)
      rw [hid] at hlater
      exact ⟨(hlater _).2 (by decide), fun h => absurd ((hlater _).1 h) (by decide)⟩

/-- A threshold too long for a date to be moved by it counts as a century: 101 years after a tick that failed, its row
can be claimed although the threshold is not over. -/
theorem single_tick_recoverable_within_threshold :
    ¬∀ (relay : Relay) (t : Table) (now : Instant) (env : Surroundings) (fault : StoreFault),
      ((relay.tickAt now).run.runIn env { table := t }).1 = .error (.fault fault) →
      let failed := ((relay.tickAt now).run.runIn env { table := t }).2.table
      let whole := ((relay.tickAt now).run.runIn env.faultless { table := t }).2.table
      ∀ answer ∈ t.claim relay.config.partition relay.config.batchSize now relay.config.stuck, ∀ row ∈ answer.1,
        failed.find? row.id = whole.find? row.id ∨
        (failed.find? row.id = some row ∧ ∀ later : Instant,
          row.isClaimable? later relay.config.stuck = some true ↔
            now.nanos < later.nanos - relay.config.stuck.nanos) := by
  intro h
  let relay : Relay := {
    config := { stuck := .ofSeconds 9223372036854776 }
    publisher := { chunk := 4, limit := .ofSeconds 1 }
    graveyard := { limit := .ofSeconds 1 } }
  have hclaimed : ∃ answer ∈ Table.single.claim .whole 100 .epoch relay.config.stuck, ∃ row ∈ answer.1,
      row.id = 1 ∧ row.isClaimable? { nanos := 3185136000000000000 } relay.config.stuck = some true := by decide +kernel
  obtain ⟨answer, hanswer, row, hrow, hid, hdue⟩ := hclaimed
  rcases h relay Table.single .epoch markless (.database .poolTimedOut) (by decide +kernel) answer hanswer row hrow with
    hsame | ⟨-, hlater⟩
  · rw [hid] at hsame
    exact absurd hsame (by decide +kernel)
  · exact absurd ((hlater _).1 hdue) (by decide)

end Relay

end Outbox
