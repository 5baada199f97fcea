import Outbox.Proofs.Relay.Chronicle

/-! A row that is claimed again while the relay that had it is still at work. Marks look at what a row is, and not at
who claimed it: the first mark after the last claim takes effect, whichever relay asks for it, and decides what
becomes of the row. Later ones change nothing and are counted as skipped. -/

namespace Outbox.Relay

namespace Fleet

variable {ι : Type} [DecidableEq ι] {f : Fleet ι} {relays : ι → Relay}

/-- The call that a move makes, unless it fails. -/
def request? (f : Fleet ι) : Move ι → Option Request
  | .save event => some (.save event)
  | .proceed relay chance =>
    match f.phase relay, chance.fault with
    | .working (.act (.ask request) _), none => some request
    | _, _ => none
  | .start _ _ | .land _ _ _ _ _ => none

/-- The calls that moves make. -/
def requests (relays : ι → Relay) : Fleet ι → List (Move ι) → List Request
  | _, [] => []
  | f, move :: rest => (f.request? move).toList ++ requests relays (f.step relays move) rest

theorem table_step (relays : ι → Relay) (f : Fleet ι) (move : Move ι) :
    (f.step relays move).table = f.table.run (f.request? move).toList := by
  cases move with
  | save event => rfl
  | start relay job =>
    rw [step]
    split <;> rfl
  | land relay place start delay ending =>
    rw [step, land]
    split
    · split <;> rfl
    · rfl
  | proceed relay chance =>
    rw [step, request?]
    split
    · next h => rw [h]; rfl
    · next h => rw [h]; rfl
    · next action next h =>
      rw [h]
      cases action with
      | ask request =>
        rw [act]
        cases chance.fault <;> rfl
      | now | elapsed | note | deliver => rfl
    · next h =>
      rw [h]
      split <;> rfl

theorem table_run (relays : ι → Relay) (f : Fleet ι) (moves : List (Move ι)) :
    (moves.foldl (step relays) f).table = f.table.run (f.requests relays moves) := by
  induction moves generalizing f with
  | nil => rfl
  | cons move rest ih =>
    rw [List.foldl_cons, ih, table_step, requests, Table.run, Table.run, Table.run, List.foldl_append]

end Fleet

namespace Chronicle

variable {ι : Type} [DecidableEq ι] {relays : ι → Relay} {c : Chronicle ι} {i : ι} {chance : Chance} {request : Request}

theorem table_run (relays : ι → Relay) (c : Chronicle ι) (moves : List (Move ι)) :
    (c.run relays moves).table = c.table.run (c.requests relays moves) := by
  rw [toFleet_run, Fleet.table_run]

/-- A relay that makes a call is about to, and hears the answer of the table. -/
theorem turn_of_request? (relays : ι → Relay) (h : c.request? (.proceed i chance) = some request) :
    ∃ next, c.phase i = .working (.act (.ask request) next) ∧
      (c.step relays (.proceed i chance)).table = c.table.after request ∧
      (c.step relays (.proceed i chance)).story i = ⟨.ask request, (c.table.answer request).1⟩ :: c.story i := by
  rw [Fleet.request?] at h
  split at h
  · next next hphase hfault =>
    cases h
    refine ⟨next, hphase, ?_, ?_⟩
    · rw [step, Fleet.table_step, Fleet.request?, hphase, hfault]
      rfl
    · simp only [step, Fleet.tell, hphase, Fleet.heard, hfault, Function.update_self]
  · cases h

/-- Whatever happens, each relay goes on with what is proper after its story. -/
theorem Follows.step (h : c.Follows relays fun _ _ => True) (move : Move ι) :
    (c.step relays move).Follows relays fun _ _ => True :=
  h.turn (turn_step relays c move) fun i job _ => job_follows (relays i) job

theorem Follows.run (h : c.Follows relays fun _ _ => True) (moves : List (Move ι)) :
    (c.run relays moves).Follows relays fun _ _ => True := by
  induction moves generalizing c with
  | nil => exact h
  | cons move rest ih => exact ih (h.step move)

/-- A relay marks different rows, which it claimed itself and has not marked yet; those that are not being sent it
counts as missed. -/
theorem Follows.marks (h : c.Follows relays fun _ _ => True) (hrequest : c.request? (.proceed i chance) = some request)
    (hmark : request.isMark) :
    (∀ id ∈ request.targets, ∃ row, (c.story i).Holds row ∧ row.id = id) ∧
      ((c.step relays (.proceed i chance)).story i).missed =
        (c.story i).missed + request.targets.countP fun id => !c.table.sends id := by
  obtain ⟨next, hphase, -, hstory⟩ := turn_of_request? relays hrequest
  have hnow := h i
  rw [hphase] at hnow
  obtain ⟨-, hids, hholds⟩ := hnow.1.settles hmark
  obtain ⟨answer, hanswer, htally⟩ := Table.tally_answer hmark hids c.table
  refine ⟨hholds, ?_⟩
  rw [hstory, hanswer, Story.missed, Nat.add_comm]
  congr 1
  rw [Exchange.missed, htally, List.length_eq_countP_add_countP c.table.sends, Nat.add_sub_cancel_left]
  exact List.countP_congr fun id _ => by simp

/-- The first mark of a row after its last claim decides what becomes of it, whichever relay asks for it. Say that a
relay claims a row, that the row is not claimed again between some moves, and that then a relay, the same or another,
asks for a mark of it. That relay has claimed the row itself in the job that it is at, and has not marked it. If no
mark of the row took effect in between, this one does and decides its status, and then none does before it is claimed
again. If one did, this one changes nothing. Rows that are marked without effect are counted as missed, and a
tick reports as skipped all that it missed. -/
theorem superseded_marks (relays : ι → Relay) (before between : List (Move ι)) (owner marker : ι)
    (chance chance' : Chance) (claim mark : Request) (id : Int) {start claimed now marked : Chronicle ι}
    (hstart : start = run relays {} before) (hclaimed : claimed = start.step relays (.proceed owner chance))
    (hnow : now = claimed.run relays between) (hmarked : marked = now.step relays (.proceed marker chance'))
    (hclaim : start.request? (.proceed owner chance) = some claim) (hhands : start.table.Hands claim id)
    (hbetween : Table.Unclaimed id claimed.table (claimed.requests relays between))
    (hmark : now.request? (.proceed marker chance') = some mark) (hid : id ∈ mark.targets) :
    (∃ row, (now.story marker).Holds row ∧ row.id = id) ∧
    (Table.marksOn id claimed.table (claimed.requests relays between) = [] →
      (∃ r, marked.table.find? id = some r ∧ mark.verdict? = some r.status) ∧
      ∀ later, Table.Unclaimed id marked.table (marked.requests relays later) →
        Table.marksOn id marked.table (marked.requests relays later) = []) ∧
    (Table.marksOn id claimed.table (claimed.requests relays between) ≠ [] →
      marked.table.find? id = now.table.find? id) ∧
    (now.table.sends id ↔ Table.marksOn id claimed.table (claimed.requests relays between) = []) ∧
    (marked.story marker).missed =
      (now.story marker).missed + mark.targets.countP (fun other => !now.table.sends other) ∧
    ∀ time, ((relays marker).tickAt time).Abides Credible ((relays marker).Proper fun _ _ => True)
      (relays marker).Alarmed (fun report s => report.skipped = s.missed) [] := by
  obtain ⟨-, -, hafter, -⟩ := turn_of_request? relays hclaim
  obtain ⟨-, -, hlater, -⟩ := turn_of_request? relays hmark
  rw [← hclaimed] at hafter
  rw [← hmarked] at hlater
  have hfollows : now.Follows relays fun _ _ => True := by
    rw [hnow, hclaimed, hstart]
    exact (((follows_start relays _).run before).step _).run between
  have hsends : claimed.table.sends id := by
    cases claim with
    | claim p limit time stuck =>
      obtain ⟨r, hr, hsending, -⟩ := Table.sentAt_after hhands
      rw [hafter]
      exact Table.sends_iff.2 ⟨r, hr, hsending⟩
    | save | markPublished | markFailed | markDead | counts => cases hhands
  have hstill : now.table.sends id ↔ Table.marksOn id claimed.table (claimed.requests relays between) = [] := by
    rw [hnow, table_run]
    exact Table.sends_run_iff hsends hbetween
  obtain ⟨hholds, hmissed⟩ := hfollows.marks hmark (Request.isMark_of_mem_targets hid)
  refine ⟨hholds id hid, fun hnone => ⟨?_, fun later hunclaimed => ?_⟩, fun hone => ?_, hstill, ?_, fun time => ?_⟩
  · rw [hlater]
    exact (Table.marks_iff_sends.2 ⟨hid, hstill.2 hnone⟩).status
  · refine (Table.marksOn_of_not_sends ?_ hunclaimed).1
    rw [hlater]
    exact now.table.not_sends_after_mark hid
  · by_contra hne
    rw [hlater] at hne
    exact hone (hstill.1 (Table.marks_iff_sends.1 ⟨Request.isMark_of_mem_targets hid, hne⟩).2)
  · rw [hmarked]
    exact hmissed
  · exact (tickAt_abides (.refl []) trivial).imp fun _ _ h => h.2

/-! ### Two relays and one row -/

/-- Two relays that wait a second at most. -/
def rivals : Bool → Relay := fun _ =>
  { publisher := { chunk := 4, limit := .ofSeconds 1 }, graveyard := { limit := .ofSeconds 1 } }

/-- One relay claims the row of an event, and eleven minutes later the other is about to. -/
def rivalry : List (Move Bool) :=
  [.save {
    id := 1, aggregateType := "Order", aggregateId := "order-1", kind := "OrderPlaced", payload := [123, 125]
    createdAt := .epoch },
   .start true (.tickAt .epoch), .proceed true {}, .start false (.tickAt { nanos := 660000000000 })]

/-- A relay that has claimed the row posts it, has it accepted and reads the clock. -/
def publishes (relay : Bool) : List (Move Bool) :=
  [.proceed relay {}, .land relay 0 0 20 .accept, .proceed relay {}, .proceed relay {}]

/-- The relay whose row was claimed by the other marks it after the other has, and changes nothing. -/
theorem rivals_skip :
    let now := ((run rivals {} rivalry).step rivals (.proceed false {})).run rivals
      (publishes false ++ [.proceed false {}] ++ publishes true)
    (now.step rivals (.proceed true {})).table.find? 1 = now.table.find? 1 ∧
      ((now.step rivals (.proceed true {})).story true).missed = 1 := by
  intro now
  obtain ⟨-, -, hkept, -, hmissed, -⟩ := superseded_marks rivals rivalry
    (publishes false ++ [.proceed false {}] ++ publishes true) false true {} {}
    (.claim .whole 100 { nanos := 660000000000 } (.ofSeconds 600)) (.markPublished [1] .epoch) 1 rfl rfl rfl rfl
    (by decide +kernel) (by decide +kernel) (by decide +kernel) (by decide +kernel) (by decide)
  refine ⟨hkept (by decide +kernel), ?_⟩
  rw [hmissed]
  decide +kernel

/-- If the other has not marked it yet, its mark takes effect, and settles the row before the other's delivery. -/
theorem rivals_overtake :
    ¬∀ (relays : Bool → Relay) (before between : List (Move Bool)) (chance chance' : Chance) (claim mark : Request)
      (id : Int),
      let start := run relays {} before
      let claimed := start.step relays (.proceed false chance)
      let now := claimed.run relays between
      (∃ row, (start.story true).Holds row ∧ row.id = id) → start.request? (.proceed false chance) = some claim →
      start.table.Hands claim id → Table.Unclaimed id claimed.table (claimed.requests relays between) →
      now.request? (.proceed true chance') = some mark → id ∈ mark.targets →
      (now.step relays (.proceed true chance')).table.find? id = now.table.find? id := by
  intro h
  have hheld : ∃ row ∈ ((run rivals {} rivalry).story true).claimed,
      row.id ∉ ((run rivals {} rivalry).story true).marked ∧ row.id = 1 := by decide +kernel
  obtain ⟨row, hrow, hunmarked, hid⟩ := hheld
  have := h rivals rivalry (publishes true) {} {} (.claim .whole 100 { nanos := 660000000000 } (.ofSeconds 600))
    (.markPublished [1] .epoch) 1 ⟨row, ⟨hrow, hunmarked⟩, hid⟩ (by decide +kernel) (by decide +kernel)
    (by decide +kernel) (by decide +kernel) (by decide)
  exact absurd this (by decide +kernel)

end Chronicle

end Outbox.Relay
