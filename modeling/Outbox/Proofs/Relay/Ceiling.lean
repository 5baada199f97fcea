import Outbox.Proofs.Relay.Ledger
import Outbox.Proofs.Store.Attempts

/-! The end of attempts. If every dead letter is taken, ticks that are left alone claim no row more often than their
policy allows: a failed row is only kept while it has attempts left, and one that has none is given up by the tick that
claimed it last. So no event circulates forever. -/

namespace Outbox.Relay

variable {env : Surroundings} {relay : Relay} {t : Table} {r : Row} {m : Nat}

/-! ### What a program asks for -/

def Exchange.request? : Exchange → Option Request
  | ⟨.ask request, _⟩ => some request
  | ⟨.now, _⟩ | ⟨.elapsed, _⟩ | ⟨.deliver _ _ _, _⟩ | ⟨.note _, _⟩ => none

/-- The calls of a story, in order. -/
def Story.requests (story : Story) : List Request := story.reverse.filterMap Exchange.request?

theorem Story.requests_cons (exchange : Exchange) (story : Story) :
    Story.requests (exchange :: story) = Story.requests story ++ exchange.request?.toList := by
  rw [requests, List.reverse_cons, List.filterMap_append, requests, List.filterMap_cons, List.filterMap_nil]
  cases exchange.request? <;> rfl

/-- If no call fails, the table is the one that the calls of the story make. -/
theorem table_runIn {α : Type} (hfaults : env.Faultless) (x : Program α) {s : Scene}
    (h : s.table = t.run s.story.requests) : (x.runIn env s).2.table = t.run (x.runIn env s).2.story.requests := by
  induction x generalizing s with
  | done a => exact h
  | act action next ih =>
    apply ih
    rw [Story.requests_cons, Table.run_append, ← h]
    cases action with
    | ask request =>
      have hanswer : env.answer s (.ask request) = s.table.answer request := by
        rw [Surroundings.answer, hfaults s.story request]
      change (env.answer s (.ask request)).2 = _
      rw [hanswer]
      rfl
    | now | elapsed | deliver | note => rfl

/-! ### Rounds -/

/-- The broker takes every dead letter in time, whatever it does with other parcels. -/
def Surroundings.Acknowledges (env : Surroundings) (g : Graveyard) : Prop :=
  ∀ story failed now, (env.treat story [g.letter failed now] 0).ending = .accept ∧
    (env.treat story [g.letter failed now] 0).delay ≤ g.limit.timerMillis

theorem Surroundings.Acknowledges.receives {g : Graveyard} (h : env.Acknowledges g) :
    env.Receives g fun delivery => delivery = .delivered := by
  intro story failed now
  obtain ⟨hending, hdelay⟩ := h story failed now
  refine ⟨.delivered, none, ?_, rfl, rfl⟩
  have hdelivery := Simulation.Flight.delivery_depart (g.letter failed now) (env.treat story [g.letter failed now] 0) 0
    g.limit false
  rw [if_pos hdelay, hending] at hdelivery
  exact congrArg (fun delivery => [delivery]) hdelivery

/-- An event is saved, or a relay ticks, as of a time and in surroundings of any kind. -/
inductive Round
  | save (event : Event)
  | tick (relay : Relay) (now : Instant) (env : Surroundings)

namespace Round

/-- What a tick comes to, and the scene after it. -/
def outcome (relay : Relay) (now : Instant) (env : Surroundings) (t : Table) : Except Interrupt Report × Scene :=
  (relay.tickAt now).run.runIn env { table := t }

def play (t : Table) : Round → Table
  | save event => t.after (.save event)
  | tick relay now env => (outcome relay now env t).2.table

/-- The calls of a round. -/
def requests (t : Table) : Round → List Request
  | save event => [.save event]
  | tick relay now env => (outcome relay now env t).2.story.requests

/-- A tick in which no call fails, every dead letter is taken, and rows have so many attempts. -/
def Fair (m : Nat) : Round → Prop
  | save _ => True
  | tick relay _ env => relay.policy.maxAttempts = some m ∧ env.Faultless ∧ env.Acknowledges relay.graveyard

theorem play_eq {round : Round} (h : round.Fair m) : round.play t = t.run (round.requests t) := by
  cases round with
  | save event => rfl
  | tick relay now env => exact table_runIn h.2.1 (relay.tickAt now).run rfl

/-- The table after rounds one after the other. -/
def playAll (t : Table) (rounds : List Round) : Table := rounds.foldl play t

/-- The calls of rounds one after the other. -/
def allRequests : Table → List Round → List Request
  | _, [] => []
  | t, round :: rest => round.requests t ++ allRequests (round.play t) rest

theorem playAll_eq {rounds : List Round} (h : ∀ round ∈ rounds, round.Fair m) :
    playAll t rounds = t.run (allRequests t rounds) := by
  induction rounds generalizing t with
  | nil => rfl
  | cons round rest ih =>
    obtain ⟨hround, hrest⟩ := List.forall_mem_cons.1 h
    rw [allRequests, Table.run_append, ← play_eq hround, ← ih hrest]
    rfl

end Round

/-! ### The ceiling -/

/-- A row between ticks: it is not being sent, and if it is to be claimed again it has attempts left. -/
structure Capped (m : Nat) (r : Row) : Prop where
  rests : r.status ≠ .sending
  attempt_le : r.attempt ≤ max m 1
  attempt_lt : ¬r.status.isTerminal → r.attempt < max m 1

theorem capped_pending (m : Nat) (event : Event) : Capped m (.pending event) := by
  have hzero : (Row.pending event).attempt = 0 := rfl
  refine ⟨nofun, ?_, fun _ => ?_⟩ <;> omega

/-- A row that was claimed one time more than it had been is left capped. -/
theorem Account.capped (account : Account relay) (hpolicy : relay.policy.maxAttempts = some m)
    (hdelivered : ∀ post ∈ account.letters, post.2 = .delivered) (hattempt : account.row.attempt ≤ max m 1) :
    Capped m account.final ∧ (account.row.attempt = max m 1 → account.final.status.isTerminal) := by
  have h := account.settled
  generalize account.posts = posts at h
  generalize account.final = final at h ⊢
  generalize account.letters = letters at h hdelivered
  cases h with
  | published => exact ⟨⟨nofun, hattempt, fun hopen => absurd rfl hopen⟩, fun _ => rfl⟩
  | deadLettered => exact ⟨⟨nofun, hattempt, fun hopen => absurd rfl hopen⟩, fun _ => rfl⟩
  | retried _ hleft =>
    have hlt := hleft m hpolicy
    exact ⟨⟨nofun, hattempt, fun _ => by dsimp only; omega⟩, fun hlast => by omega⟩
  | kept _ _ _ hproblem =>
    have htaken := hdelivered _ (List.mem_singleton_self _)
    dsimp only at htaken
    rw [htaken] at hproblem
    cases hproblem

/-- The rows of a table, between ticks. -/
def AllCapped (m : Nat) (t : Table) : Prop := ∀ id r, t.find? id = some r → Capped m r

theorem AllCapped.save (h : AllCapped m t) (event : Event) : AllCapped m (t.after (.save event)) := by
  intro id r hr
  have hchange := Table.change_after t (.save event) id
  rw [hr] at hchange
  generalize hfound : t.find? id = found at hchange
  cases hchange with
  | kept => exact h id r hfound
  | saved => exact capped_pending m event

/-- A tick on capped rows ends with a report and leaves all rows capped. The rows that it claims as often as they may
be, it settles for good. -/
theorem AllCapped.tick (h : AllCapped m t) (hpolicy : relay.policy.maxAttempts = some m) (hfaults : env.Faultless)
    (hacknowledges : env.Acknowledges relay.graveyard) (now : Instant) :
    ∃ report rows claimed, (Round.outcome relay now env t).1 = .ok report ∧
      t.claim relay.config.partition relay.config.batchSize now relay.config.stuck = some (rows, claimed) ∧
      AllCapped m (Round.outcome relay now env t).2.table ∧
      ∀ row ∈ rows, row.attempt = max m 1 →
        ∃ r, (Round.outcome relay now env t).2.table.find? row.id = some r ∧ r.status.isTerminal := by
  -- No row is being sent, so the claim has an answer even if its time less the threshold is no date.
  have hrests : ∀ r ∈ t.rows, r.status ≠ .sending := fun r hr => (h r.id r (Table.find?_of_mem hr)).rests
  obtain ⟨⟨rows, claimed⟩, hclaim⟩ := Option.isSome_iff_exists.1
    (Table.claim_isSome_of_rests hrests relay.config.partition relay.config.batchSize)
  obtain ⟨report, hreport, ledger, hrows, hletters, -, haccounts, hothers, -⟩ :=
    tickAt_yields_of_claim (s := { table := t }) hfaults hacknowledges.receives hclaim
  -- A row that may be claimed is not settled, so it has had fewer attempts than it may.
  have hattempt (account : Account relay) (haccount : account ∈ ledger) : account.row.attempt ≤ max m 1 := by
    have hrow : account.row ∈ rows := hrows ▸ List.mem_map_of_mem haccount
    obtain ⟨before, hbefore, hdue, hstamped, -⟩ := Table.find?_after_claim hclaim hrow
    have hopen : ¬before.status.isTerminal := by
      rcases Row.status_of_isClaimable? hdue with hstatus | hstatus | hstatus <;> rw [hstatus] <;> decide
    have hlt := (h _ before hbefore).attempt_lt hopen
    rw [hstamped]
    change before.attempt + 1 ≤ max m 1
    omega
  have hcapped (account : Account relay) (haccount : account ∈ ledger) :=
    account.capped hpolicy (hletters account haccount) (hattempt account haccount)
  refine ⟨report, rows, claimed, hreport, hclaim, fun id r hr => ?_, fun row hrow hlast => ?_⟩
  · by_cases hmine : ∃ account ∈ ledger, account.row.id = id
    · obtain ⟨account, haccount, rfl⟩ := hmine
      have hfinal := (haccounts account haccount).2
      rw [Option.some.inj (hr.symm.trans hfinal)]
      exact (hcapped account haccount).1
    · refine h id r ((hothers id fun row hrow hid => hmine ?_).symm.trans hr)
      rw [← hrows] at hrow
      obtain ⟨account, haccount, rfl⟩ := List.mem_map.1 hrow
      exact ⟨account, haccount, hid⟩
  · rw [← hrows] at hrow
    obtain ⟨account, haccount, rfl⟩ := List.mem_map.1 hrow
    exact ⟨account.final, (haccounts account haccount).2, (hcapped account haccount).2 hlast⟩

theorem AllCapped.playAll {rounds : List Round} (h : AllCapped m t) (hfair : ∀ round ∈ rounds, round.Fair m) :
    AllCapped m (Round.playAll t rounds) := by
  induction rounds generalizing t with
  | nil => exact h
  | cons round rest ih =>
    obtain ⟨hround, hrest⟩ := List.forall_mem_cons.1 hfair
    refine ih ?_ hrest
    cases round with
    | save event => exact h.save event
    | tick relay now env =>
      obtain ⟨hpolicy, hfaults, hacknowledges⟩ := hround
      obtain ⟨-, -, -, -, -, hcapped, -⟩ := h.tick hpolicy hfaults hacknowledges now
      exact hcapped

/-- Attempts end at the ceiling. Say that events are saved and relays tick, one after the other and from an empty
table, with no call that fails and a broker that takes every dead letter in time, and does with other parcels what it
likes. If rows have `m` attempts, then between ticks no row has been claimed more often than `max m 1` times, as its
attempts tell, and a row that is neither published nor dead has been claimed less often. Every further tick ends with a
report, and a row that it claims for the `max m 1`-th time it leaves published or dead. -/
theorem attempts_end (m : Nat) (rounds : List Round) (hfair : ∀ round ∈ rounds, round.Fair m) :
    let t := Round.playAll {} rounds
    let requests := Round.allRequests {} rounds
    t = Table.run {} requests ∧
    (∀ r ∈ t.rows, r.attempt = (Table.claimsOn r.id {} requests).length ∧ r.attempt ≤ max m 1 ∧
      (r.status ≠ .published → r.status ≠ .deadLettered →
        (Table.claimsOn r.id {} requests).length < max m 1)) ∧
    ∀ relay now env, (Round.tick relay now env).Fair m →
      ∃ report rows claimed, (Round.outcome relay now env t).1 = .ok report ∧
        t.claim relay.config.partition relay.config.batchSize now relay.config.stuck = some (rows, claimed) ∧
        ∀ row ∈ rows, row.attempt = max m 1 → ∃ r, (Round.outcome relay now env t).2.table.find? row.id = some r ∧
          (r.status = .published ∨ r.status = .deadLettered) := by
  intro t requests
  have htable : t = Table.run {} requests := Round.playAll_eq hfair
  have hempty : AllCapped m {} := fun id r hr => absurd hr (Option.some_ne_none r).symm
  have hcapped : AllCapped m t := hempty.playAll hfair
  refine ⟨htable, fun r hr => ?_, fun relay now env hround => ?_⟩
  · have hfound : t.find? r.id = some r := Table.find?_of_mem hr
    have hrow := hcapped r.id r hfound
    rw [htable] at hfound
    have hattempt := (Table.aged_of_empty hfound).attempt
    refine ⟨hattempt, hrow.attempt_le, fun hunpublished halive => ?_⟩
    have hopen : ¬r.status.isTerminal := by
      cases hstatus : r.status with
      | published => exact absurd hstatus hunpublished
      | deadLettered => exact absurd hstatus halive
      | pending | sending | failed => decide
    have hlt := hrow.attempt_lt hopen
    omega
  · obtain ⟨hpolicy, hfaults, hacknowledges⟩ := hround
    obtain ⟨report, rows, claimed, hreport, hclaim, -, hlast⟩ := hcapped.tick hpolicy hfaults hacknowledges now
    refine ⟨report, rows, claimed, hreport, hclaim, fun row hrow hceiling => ?_⟩
    obtain ⟨r, hr, hover⟩ := hlast row hrow hceiling
    refine ⟨r, hr, ?_⟩
    cases hstatus : r.status with
    | published => exact .inl rfl
    | deadLettered => exact .inr rfl
    | pending | sending | failed => rw [hstatus] at hover; cases hover

/-- A relay that gives rows two attempts. -/
def brisk : Relay :=
  { publisher := { chunk := 4, limit := .ofSeconds 1 }, graveyard := { limit := .ofSeconds 1 }
    policy := { maxAttempts := some 2 } }

/-- A broker that is down for all but dead letters. -/
def barred : Surroundings where
  now _ := .epoch
  elapsed _ := 0
  fault _ _ := none
  treat _ parcels _ :=
    if parcels.any (·.topic == "outbox.dead-letter") then {} else { ending := .refuse (.unavailable "down") }

theorem barred_acknowledges : barred.Acknowledges brisk.graveyard := by
  intro story failed now
  have htreat : barred.treat story [brisk.graveyard.letter failed now] 0 = {} := by
    simp [barred, brisk, Graveyard.letter]
  rw [htreat]
  exact ⟨rfl, Nat.zero_le _⟩

/-- The row of an event is claimed once in vain, and claimed again it is given up. -/
theorem brisk_ends :
    let rounds := [
      Round.save {
        id := 1, aggregateType := "Order", aggregateId := "order-1", kind := "OrderPlaced", payload := [123, 125]
        createdAt := .epoch },
      .tick brisk .epoch barred]
    let t := Round.playAll {} rounds
    (∃ r ∈ t.rows, r.status = .failed ∧ (Table.claimsOn r.id {} (Round.allRequests {} rounds)).length < max 2 1) ∧
    ∃ r, (Round.outcome brisk { nanos := 10000000000 } barred t).2.table.find? 1 = some r ∧
      (r.status = .published ∨ r.status = .deadLettered) := by
  intro rounds t
  have hfair : (Round.tick brisk .epoch barred).Fair 2 := ⟨rfl, fun _ _ => rfl, barred_acknowledges⟩
  have hrounds : ∀ round ∈ rounds, round.Fair 2 := by
    intro round hround
    rcases List.mem_cons.1 hround with rfl | hround
    · trivial
    · rw [List.mem_singleton.1 hround]
      exact hfair
  obtain ⟨-, hopen, hlast⟩ := attempts_end 2 rounds hrounds
  have hfailed : ∃ r ∈ t.rows, r.status = .failed := by decide +kernel
  obtain ⟨r, hr, hstatus⟩ := hfailed
  obtain ⟨report, rows, claimed, -, hclaim, hceiling⟩ := hlast brisk { nanos := 10000000000 } barred hfair
  have hrows : ∀ answer ∈ t.claim .whole 100 { nanos := 10000000000 } (.ofSeconds 600),
      ∃ row ∈ answer.1, row.id = 1 ∧ row.attempt = 2 := by decide +kernel
  obtain ⟨row, hrow, hid, hattempt⟩ := hrows _ hclaim
  refine ⟨⟨r, hr, hstatus, (hopen r hr).2.2 ?_ ?_⟩, ?_⟩
  · rw [hstatus]
    decide
  · rw [hstatus]
    decide
  · rw [← hid]
    exact hceiling row hrow (by rw [hattempt]; rfl)

end Outbox.Relay
