import Mathlib.Data.List.Perm.Basic
import Outbox.Proofs.Store.Causes
import Outbox.Proofs.Store.Marking

/-! The life of a row in a table that starts empty. A row is there from the call that saves its event on, and keeps
the event. Claims and marks move its status along a few steps, and nothing changes it once it is published or dead.
Its attempts are the claims that returned it, and they tell a row that is pending from one that is not. The counts of
a table add up to the events that were saved as new. -/

namespace Outbox

/-- How a call may move the status of a row. -/
def Request.Moves : Request → Status → Status → Prop
  | .claim _ _ _ _, old, new => (old = .pending ∨ old = .failed ∨ old = .sending) ∧ new = .sending
  | .markPublished _ _, old, new => old = .sending ∧ new = .published
  | .markFailed _ _ _ _, old, new => old = .sending ∧ new = .failed
  | .markDead _ _ _, old, new => old = .sending ∧ new = .deadLettered
  | .save _, _, _ | .counts, _, _ => False

theorem Request.Moves.not_isTerminal {request : Request} {old new : Status} (h : request.Moves old new) :
    ¬old.isTerminal := by
  cases request with
  | claim => rcases h.1 with rfl | rfl | rfl <;> decide
  | markPublished | markFailed | markDead => rw [h.1]; decide
  | save | counts => exact h.elim

theorem Row.status_of_isClaimable? {r : Row} {now : Instant} {stuck : Span} (h : r.isClaimable? now stuck = some true) :
    r.status = .pending ∨ r.status = .failed ∨ r.status = .sending := by
  cases hs : r.status <;> simp [isClaimable?, hs] at h ⊢

namespace Table

variable {t : Table} {r : Row} {id : Int} {request : Request}

/-! ### One call -/

theorem token_markPublished (t : Table) (now : Instant) (ids : List Int) :
    (t.markPublished now ids).2.token = t.token := by
  induction ids generalizing t with
  | nil => rfl
  | cons id rest ih => exact ih (t.settle id (·.published now) (·.id_published now)).2

/-- A table keeps its name. -/
theorem token_after (t : Table) (request : Request) : (t.after request).token = t.token := by
  cases request with
  | save e =>
    change (t.save e).2.token = t.token
    rw [save]
    split <;> rfl
  | claim p limit now stuck =>
    cases hclaim : t.claim p limit now stuck with
    | none => rw [after_claim_none hclaim]
    | some answer =>
      rw [after_claim hclaim]
      rw [claim] at hclaim
      split at hclaim
      · cases hclaim; rfl
      · obtain ⟨candidates, -, hanswer⟩ := Option.map_eq_some_iff.1 hclaim
        cases hanswer
        rfl
  | markPublished ids now => exact t.token_markPublished now ids
  | markFailed | markDead | counts => rfl

theorem token_run (t : Table) (requests : List Request) : (t.run requests).token = t.token := by
  induction requests generalizing t with
  | nil => rfl
  | cons request rest ih => rw [run_cons, ih, token_after]

/-- What a call leaves of a row that is there: the row with its event, as it was or moved on. -/
theorem exists_after (hr : r ∈ t.rows) (request : Request) :
    ∃ r' ∈ (t.after request).rows, r'.event = r.event ∧ (r' = r ∨ request.Moves r.status r'.status) := by
  have hchange := change_after t request r.id
  rw [find?_of_mem hr] at hchange
  suffices ∃ r', (t.after request).find? r.id = some r' ∧ r'.event = r.event ∧
      (r' = r ∨ request.Moves r.status r'.status) by
    obtain ⟨r', hfound, hrest⟩ := this
    exact ⟨r', (find?_eq_some_iff.1 hfound).1, hrest⟩
  generalize (t.after request).find? r.id = left at hchange
  cases hchange with
  | kept => exact ⟨r, rfl, rfl, .inl rfl⟩
  | claimed _ _ hdue => exact ⟨_, rfl, rfl, .inr ⟨Row.status_of_isClaimable? hdue, rfl⟩⟩
  | published _ _ hsending | failed _ hsending | deadLettered _ hsending =>
    exact ⟨_, rfl, rfl, .inr ⟨hsending, rfl⟩⟩

/-! ### Saved events -/

/-- The event that a call saves, if it is new. -/
def admitted (t : Table) : Request → List Event
  | .save e => if (t.save e).1 then [e] else []
  | .claim _ _ _ _ | .markPublished _ _ | .markFailed _ _ _ _ | .markDead _ _ _ | .counts => []

/-- The events that calls one after the other save as new. -/
def accepted : Table → List Request → List Event
  | _, [] => []
  | t, request :: rest => t.admitted request ++ accepted (t.after request) rest

theorem insertRow_perm (row : Row) (rows : List Row) : (insertRow row rows).Perm (row :: rows) := by
  induction rows with
  | nil => exact .refl _
  | cons first rest ih =>
    rw [insertRow]
    split
    · exact .refl _
    · exact (ih.cons first).trans (.swap row first rest)

theorem map_event_map {f : Row → Row} (h : ∀ r, (f r).event = r.event) (rows : List Row) :
    (rows.map f).map Row.event = rows.map Row.event := by
  rw [List.map_map]
  exact List.map_congr_left fun r _ => h r

theorem events_settle {f : Row → Row} (keeps : ∀ r, (f r).id = r.id) (h : ∀ r, (f r).event = r.event) (t : Table)
    (id : Int) : (t.settle id f keeps).2.rows.map Row.event = t.rows.map Row.event := by
  apply map_event_map
  intro r
  split
  · exact h r
  · rfl

theorem events_markPublished (t : Table) (now : Instant) (ids : List Int) :
    (t.markPublished now ids).2.rows.map Row.event = t.rows.map Row.event := by
  induction ids generalizing t with
  | nil => rfl
  | cons id rest ih => exact (ih _).trans (events_settle (·.id_published now) (fun _ => rfl) t id)

/-- A call adds the event that it saves as new, and takes none away. -/
theorem events_after (t : Table) (request : Request) :
    ((t.after request).rows.map Row.event).Perm (t.rows.map Row.event ++ t.admitted request) := by
  cases request with
  | save e =>
    change ((t.save e).2.rows.map Row.event).Perm _
    rw [admitted, save]
    split
    · simp
    · simp only [if_true]
      exact ((insertRow_perm (.pending e) t.rows).map Row.event).trans (List.perm_append_singleton e _).symm
  | claim p limit now stuck =>
    rw [admitted, List.append_nil]
    cases hclaim : t.claim p limit now stuck with
    | none => rw [after_claim_none hclaim]
    | some answer =>
      rw [after_claim hclaim]
      rw [claim] at hclaim
      split at hclaim
      · cases hclaim
        exact .refl _
      · obtain ⟨candidates, -, hanswer⟩ := Option.map_eq_some_iff.1 hclaim
        cases hanswer
        apply List.Perm.of_eq
        apply map_event_map
        intro r
        split <;> rfl
  | markPublished ids now =>
    rw [admitted, List.append_nil]
    exact .of_eq (events_markPublished t now ids)
  | markFailed id cause delay now =>
    rw [admitted, List.append_nil]
    exact .of_eq (events_settle (·.id_failed cause delay now) (fun _ => rfl) t id)
  | markDead id cause now =>
    rw [admitted, List.append_nil]
    exact .of_eq (events_settle (·.id_deadLettered cause now) (fun _ => rfl) t id)
  | counts =>
    rw [admitted, List.append_nil]
    exact .refl _

/-- The rows of a table are those of the events that it had and of those that were saved since. -/
theorem events_run (t : Table) (requests : List Request) :
    ((t.run requests).rows.map Row.event).Perm (t.rows.map Row.event ++ accepted t requests) := by
  induction requests generalizing t with
  | nil => simp [accepted]
  | cons request rest ih =>
    rw [run_cons, accepted, ← List.append_assoc]
    exact (ih (t.after request)).trans ((events_after t request).append_right _)

/-! ### Claims -/

/-- The claims among calls that return the row of an id, in order. -/
def claimsOn (id : Int) : Table → List Request → List Request
  | _, [] => []
  | t, request :: rest =>
    if t.Hands request id then request :: claimsOn id (t.after request) rest else claimsOn id (t.after request) rest

/-- What a row is like that was claimed so often. -/
structure Aged (token : Token) (claims : Nat) (r : Row) : Prop where
  attempt : r.attempt = claims
  fresh : r.status = .pending → claims = 0 ∧ r.claimedBy = none ∧ r.lastError = none
  taken : r.status ≠ .pending → 0 < claims ∧ r.claimedBy = some token
  published : r.status = .published → r.lastError = none
  failed : r.status = .failed ∨ r.status = .deadLettered →
    ∃ text, r.lastError = some text ∧ text.utf8ByteSize ≤ 2000

theorem aged_pending (token : Token) (e : Event) : Aged token 0 (.pending e) :=
  ⟨rfl, fun _ => ⟨rfl, rfl, rfl⟩, fun h => absurd rfl h, nofun, nofun⟩

theorem Aged.claimed {token : Token} {claims : Nat} (h : Aged token claims r) (now : Instant) :
    Aged token (claims + 1) (r.claimed token now) where
  attempt := by simp [Row.claimed, h.attempt]
  fresh := nofun
  taken _ := ⟨Nat.succ_pos _, rfl⟩
  published := nofun
  failed := nofun

/-- A call adds to the age of a row if it is a claim that returns it. -/
theorem Aged.after {claims : Nat} (h : Aged t.token claims r) (hr : t.find? id = some r) (request : Request) :
    ∃ r', (t.after request).find? id = some r' ∧
      Aged t.token (claims + if t.Hands request id then 1 else 0) r' := by
  by_cases hhands : t.Hands request id
  · rw [if_pos hhands]
    cases request with
    | claim p limit now stuck =>
      obtain ⟨found, hfound, -, hafter⟩ := hhands.stamped
      cases hr.symm.trans hfound
      exact ⟨_, hafter, h.claimed now⟩
    | save | markPublished | markFailed | markDead | counts => exact hhands.elim
  · rw [if_neg hhands, Nat.add_zero]
    by_cases hmarks : t.Marks request id
    · obtain ⟨hmark, hne⟩ := hmarks
      have hchange := change_after t request id
      rw [hr] at hchange hne
      generalize (t.after request).find? id = left at hchange hne ⊢
      -- The row that is marked is being sent, so it has been claimed.
      cases hchange with
      | kept => exact absurd rfl hne
      | claimed => cases hmark
      | published _ _ hsending =>
        have htaken := h.taken (by rw [hsending]; decide)
        exact ⟨_, rfl, h.attempt, nofun, fun _ => htaken, fun _ => rfl, nofun⟩
      | failed _ hsending | deadLettered _ hsending =>
        have htaken := h.taken (by rw [hsending]; decide)
        exact ⟨_, rfl, h.attempt, nofun, fun _ => htaken, nofun,
          fun _ => ⟨_, rfl, Cause.utf8ByteSize_truncate_le _⟩⟩
    · exact ⟨r, find?_after_of_quiet hr hhands hmarks, h⟩

/-- A row is there after a call if it was before or was just saved. -/
theorem find?_of_after (hr : (t.after request).find? id = some r) :
    (∃ before, t.find? id = some before) ∨ ∃ e, t.find? id = none ∧ r = .pending e := by
  have hchange := change_after t request id
  rw [hr] at hchange
  generalize t.find? id = found at hchange ⊢
  cases hchange with
  | saved e => exact .inr ⟨e, rfl, rfl⟩
  | kept | claimed | published | failed | deadLettered => exact .inl ⟨_, rfl⟩

theorem not_hands_of_find?_eq_none (h : t.find? id = none) : ¬t.Hands request id := by
  intro hhands
  cases request with
  | claim p limit now stuck =>
    obtain ⟨r, hr, -⟩ := hhands.stamped
    cases h.symm.trans hr
  | save | markPublished | markFailed | markDead | counts => exact hhands

theorem length_claimsOn_cons (t : Table) (request : Request) (rest : List Request) :
    (claimsOn id t (request :: rest)).length =
      (if t.Hands request id then 1 else 0) + (claimsOn id (t.after request) rest).length := by
  rw [claimsOn]
  split
  · rw [List.length_cons, Nat.add_comm]
  · rw [Nat.zero_add]

/-- The age of a row after calls is the one that it had, if it was there, and the claims that returned it. -/
theorem aged_run {token : Token} {age : Nat} {requests : List Request} (htoken : t.token = token)
    (hage : ∀ r, t.find? id = some r → Aged token age r) (hnew : t.find? id = none → age = 0)
    (hr : (t.run requests).find? id = some r) : Aged token (age + (claimsOn id t requests).length) r := by
  induction requests generalizing t age with
  | nil => exact hage r hr
  | cons request rest ih =>
    rw [length_claimsOn_cons, ← Nat.add_assoc]
    subst htoken
    refine ih (t.token_after request) (fun after hafter => ?_) (fun hnone => ?_) hr
    · rcases find?_of_after hafter with ⟨before, hbefore⟩ | ⟨e, hbefore, rfl⟩
      · obtain ⟨after', hafter', haged⟩ := (hage before hbefore).after hbefore request
        cases hafter.symm.trans hafter'
        exact haged
      · rw [if_neg (not_hands_of_find?_eq_none hbefore), hnew hbefore]
        exact aged_pending _ e
    · have hbefore : t.find? id = none := by
        by_contra hsome
        obtain ⟨before, hbefore⟩ := Option.ne_none_iff_exists'.1 hsome
        obtain ⟨after', hafter', -⟩ := (hage before hbefore).after hbefore request
        cases hnone.symm.trans hafter'
      rw [if_neg (not_hands_of_find?_eq_none hbefore), hnew hbefore]

theorem aged_of_empty {token : Token} {requests : List Request} (hr : (run { token := token } requests).find? id = some r) :
    Aged token (claimsOn id { token := token } requests).length r := by
  have h : Aged token (0 + (claimsOn id { token := token } requests).length) r :=
    aged_run rfl (fun _ h => by cases h) (fun _ => rfl) hr
  rwa [Nat.zero_add] at h

/-! ### Counts -/

theorem size_eq_counts (t : Table) :
    t.size = t.count .pending + t.count .sending + t.count .published + t.count .failed + t.count .deadLettered := by
  simp only [size, count]
  generalize t.rows = rows
  induction rows with
  | nil => rfl
  | cons r rest ih =>
    simp only [List.length_cons, List.countP_cons, ih]
    cases r.status <;> simp <;> omega

/-- Numbers that are zero do not count. -/
theorem foldl_filter_ne_zero (numbers : List (Status × Int)) (start : Int) :
    ((numbers.filter fun (_, n) => n != 0).map Prod.snd).foldl (· + ·) start =
      (numbers.map Prod.snd).foldl (· + ·) start := by
  induction numbers generalizing start with
  | nil => rfl
  | cons first rest ih =>
    obtain ⟨s, n⟩ := first
    by_cases hzero : n = 0
    · subst hzero
      simpa using ih start
    · simpa [hzero] using ih (start + n)

theorem total_counts (t : Table) : (t.counts.map Prod.snd).foldl (· + ·) 0 = (t.size : Int) := by
  rw [counts, foldl_filter_ne_zero, size_eq_counts]
  simp [Status.all]

theorem count_save {s : Status} (hs : s.isTerminal) (t : Table) (e : Event) : (t.save e).2.count s = t.count s := by
  rw [save]
  split
  · rfl
  · refine ((insertRow_perm (.pending e) t.rows).countP_eq _).trans ?_
    rw [List.countP_cons]
    cases s <;> first | rfl | cases hs

/-! ### Any history -/

theorem mem_run_of_isTerminal (hr : r ∈ t.rows) (hover : r.status.isTerminal) (requests : List Request) :
    r ∈ (t.run requests).rows := by
  induction requests generalizing t with
  | nil => exact hr
  | cons request rest ih =>
    obtain ⟨r', hr', -, rfl | hmoves⟩ := exists_after hr request
    · exact ih hr'
    · exact absurd hover hmoves.not_isTerminal

theorem exists_run (hr : r ∈ t.rows) (requests : List Request) : ∃ r' ∈ (t.run requests).rows, r'.event = r.event := by
  induction requests generalizing t r with
  | nil => exact ⟨r, hr, rfl⟩
  | cons request rest ih =>
    obtain ⟨r', hr', hevent, -⟩ := exists_after hr request
    obtain ⟨r'', hr'', hevent'⟩ := ih hr'
    exact ⟨r'', hr'', hevent'.trans hevent⟩

/-- The life of rows, in any history of calls of a table that starts empty. The events of the rows are just those that
were saved as new. No row is removed and none changes its event. A call leaves a row as it is or moves its status, a
claim to being sent, and a mark from there; a row that is published or dead stays as it is for good. Its attempts are
as many as the claims that returned it; a pending row has none, nor an owner or an error, and every other has been
claimed and has an owner. A published row has no error, and a failed or dead one has a text of at most 2000 bytes. The
counts add up to the events that were saved as new. -/
theorem rows_live (token : Token) (before later : List Request) (request : Request) :
    let start : Table := { token := token }
    let t := start.run before
    (t.rows.map Row.event).Perm (accepted start before) ∧
    (∀ r ∈ t.rows, ∃ r' ∈ (t.run later).rows, r'.event = r.event) ∧
    (∀ r ∈ t.rows, ∃ r' ∈ (t.after request).rows, r'.event = r.event ∧
      (r' = r ∨ request.Moves r.status r'.status)) ∧
    (∀ r ∈ t.rows, r.status.isTerminal → r ∈ (t.run later).rows) ∧
    (∀ r ∈ t.rows, r.attempt = (claimsOn r.id start before).length ∧
      (r.status = .pending ↔ r.attempt = 0 ∧ r.claimedBy = none ∧ r.lastError = none) ∧
      (r.status ≠ .pending → r.attempt ≠ 0 ∧ r.claimedBy = some token) ∧
      (r.status = .published → r.lastError = none) ∧
      (r.status = .failed ∨ r.status = .deadLettered →
        ∃ text, r.lastError = some text ∧ text.utf8ByteSize ≤ 2000)) ∧
    (t.counts.map Prod.snd).foldl (· + ·) 0 = ((accepted start before).length : Int) := by
  intro start t
  have hevents : (t.rows.map Row.event).Perm (accepted start before) := events_run start before
  refine ⟨hevents, fun r hr => exists_run hr later, fun r hr => exists_after hr request,
    fun r hr hover => mem_run_of_isTerminal hr hover later, fun r hr => ?_, ?_⟩
  · have haged : Aged token (claimsOn r.id start before).length r := aged_of_empty (find?_of_mem hr)
    have hattempt := haged.attempt
    have htaken : r.status ≠ .pending → r.attempt ≠ 0 ∧ r.claimedBy = some token := fun hne => by
      obtain ⟨hpos, howner⟩ := haged.taken hne
      exact ⟨by omega, howner⟩
    refine ⟨hattempt, ⟨fun hpending => ?_, fun hfresh => ?_⟩, htaken, haged.published, haged.failed⟩
    · obtain ⟨hzero, howner, herror⟩ := haged.fresh hpending
      exact ⟨by omega, howner, herror⟩
    · by_contra hne
      exact (htaken hne).1 hfresh.1
  · rw [total_counts, size, ← hevents.length_eq, List.length_map]

/-- The row of `single`, saved once more, claimed and given up, is not touched by another claim and a late success. -/
theorem abandoned_lives :
    let order : Event :=
      { id := 1, aggregateType := "Order", aggregateId := "order-1", kind := "OrderPlaced"
        payload := [123, 125], createdAt := .epoch }
    let claim := Request.claim .whole 10 .epoch (.ofSeconds 60)
    let before := [.save order, .save order, claim, .markDead 1 "poison" .epoch]
    let later := [claim, .markPublished [1] .epoch]
    let dead := ((Row.pending order).claimed ⟨0⟩ .epoch).deadLettered "poison" .epoch
    dead ∈ (run {} before).rows ∧ dead ∈ ((run {} before).run later).rows ∧ (accepted {} before).length = 1 ∧
    claimsOn 1 {} before = [claim] ∧ dead.attempt = (claimsOn 1 {} before).length ∧
    ∃ text, dead.lastError = some text ∧ text.utf8ByteSize ≤ 2000 := by
  intro order claim before later dead
  have hdead : dead ∈ (run {} before).rows := by decide +kernel
  obtain ⟨-, -, -, hover, hages, -⟩ := rows_live ({} : Table).token before later claim
  obtain ⟨hattempt, -, -, -, hfailed⟩ := hages dead hdead
  exact ⟨hdead, hover dead hdead rfl, by decide +kernel, by decide +kernel, hattempt, hfailed (.inr rfl)⟩

end Table

end Outbox
