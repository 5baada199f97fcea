import Outbox.Proofs.Store.Lookup

/-! Claims of one row, in any history of calls. Between two claims that return a row either it is marked as
failed once, and the second claim comes when it is due, or no mark takes effect on it, and the second claim
comes more than its threshold after the first. The row itself carries what this needs: a claim stamps it with
its time, a failure with the time at which it is due, and a row that is published or dead is never claimed.
The times of the calls need not increase. -/

namespace Outbox

/-- The arguments of a claim. -/
structure Claim where
  partition : Partition
  limit : Nat
  now : Instant
  stuck : Span

def Claim.request (c : Claim) : Request := .claim c.partition c.limit c.now c.stuck

def Request.isMark : Request → Bool
  | .markPublished _ _ | .markFailed _ _ _ _ | .markDead _ _ _ => true
  | _ => false

theorem Instant.nanos_of_minus? {now limit : Instant} {s : Span} (h : now.minus? s = some limit) :
    limit.nanos = now.nanos - s.shift.nanos := by
  simp only [Instant.minus?, Instant.ofNanos?] at h
  split at h
  · cases h
    rfl
  · cases h

/-- When a row that is being sent may be claimed again. -/
theorem Row.isClaimable?_sending {row : Row} (hsending : row.status = .sending) (later : Instant) (stuck : Span) :
    row.isClaimable? later stuck = some true ↔ row.updatedAt.nanos < later.nanos - stuck.shift.nanos := by
  have hfirst := row.updatedAt.first_le
  have hlast := later.le_last
  rw [Row.isClaimable?, hsending]
  simp only [Option.map_eq_some_iff, decide_eq_true_eq]
  constructor
  · rintro ⟨limit, hlimit, hlt⟩
    rw [← Instant.nanos_of_minus? hlimit]
    exact hlt
  · intro hlt
    refine ⟨⟨later.nanos - stuck.shift.nanos, by omega, by omega⟩, ?_, hlt⟩
    rw [Instant.minus?, Instant.ofNanos?, dif_pos (by omega)]

namespace Table

variable {t : Table} {r : Row} {id : Int} {now : Instant} {request : Request}

/-- The table after calls one after the other. -/
def run (t : Table) (requests : List Request) : Table := requests.foldl after t

@[simp] theorem run_nil (t : Table) : t.run [] = t := rfl

@[simp] theorem run_cons (t : Table) (request : Request) (rest : List Request) :
    t.run (request :: rest) = (t.after request).run rest := rfl

theorem run_append (t : Table) (requests others : List Request) :
    t.run (requests ++ others) = (t.run requests).run others := List.foldl_append

/-- The call is a claim and returns the row of an id. -/
def Hands (t : Table) (request : Request) (id : Int) : Prop :=
  match request with
  | .claim p limit now stuck => ∃ answer ∈ t.claim p limit now stuck, ∃ r ∈ answer.1, r.id = id
  | _ => False

instance (t : Table) (id : Int) : (request : Request) → Decidable (t.Hands request id)
  | .claim p limit now stuck =>
    inferInstanceAs (Decidable (∃ answer ∈ t.claim p limit now stuck, ∃ r ∈ answer.1, r.id = id))
  | .save _ | .markPublished _ _ | .markFailed _ _ _ _ | .markDead _ _ _ | .counts => .isFalse not_false

/-- None of the calls returns the row of an id from a claim. -/
def Unclaimed (id : Int) : Table → List Request → Prop
  | _, [] => True
  | t, request :: rest => ¬t.Hands request id ∧ Unclaimed id (t.after request) rest

instance instDecidableUnclaimed (id : Int) : (t : Table) → (requests : List Request) → Decidable (Unclaimed id t requests)
  | _, [] => .isTrue trivial
  | t, request :: rest =>
    have := instDecidableUnclaimed id (t.after request) rest
    inferInstanceAs (Decidable (_ ∧ _))

/-- The call is a mark and changes the row of an id. -/
def Marks (t : Table) (request : Request) (id : Int) : Prop :=
  request.isMark ∧ (t.after request).find? id ≠ t.find? id

instance (t : Table) (request : Request) (id : Int) : Decidable (t.Marks request id) :=
  inferInstanceAs (Decidable (_ ∧ _))

/-- The marks among calls that take effect on the row of an id, in order. -/
def marksOn (id : Int) : Table → List Request → List Request
  | _, [] => []
  | t, request :: rest =>
    if t.Marks request id then request :: marksOn id (t.after request) rest
    else marksOn id (t.after request) rest

/-! ### One call -/

/-- A row that a claim returns could be claimed, and is stamped with the claim's time. -/
theorem Hands.stamped {p : Partition} {limit : Nat} {stuck : Span}
    (h : t.Hands (.claim p limit now stuck) id) :
    ∃ r, t.find? id = some r ∧ r.isClaimable? now stuck = some true ∧
      (t.after (.claim p limit now stuck)).find? id = some (r.claimed t.token now) := by
  obtain ⟨⟨rows, t'⟩, hclaim, r, hr, rfl⟩ := h
  obtain ⟨before, hbefore, hdue, rfl, hafter⟩ := find?_after_claim hclaim hr
  exact ⟨before, hbefore, hdue, by rw [after_claim hclaim, hafter]⟩

/-- A call that neither returns a row from a claim nor marks it with effect leaves it as it is. -/
theorem find?_after_of_quiet (hr : t.find? id = some r) (hhands : ¬t.Hands request id)
    (hmarks : ¬t.Marks request id) : (t.after request).find? id = some r := by
  cases request with
  | save e =>
    have hchange := change_after t (.save e) id
    rw [hr] at hchange
    generalize hafter : (t.after (.save e)).find? id = found at hchange ⊢
    cases hchange
    rfl
  | claim p limit now stuck =>
    cases hclaim : t.claim p limit now stuck with
    | none => rw [after_claim_none hclaim, hr]
    | some answer =>
      obtain ⟨rows, t'⟩ := answer
      rw [after_claim hclaim, find?_after_claim_of_notMem hclaim, hr]
      intro row hrow hid
      exact hhands ⟨(rows, t'), hclaim, row, hrow, hid⟩
  | counts => exact hr
  | markPublished | markFailed | markDead =>
    by_contra hne
    exact hmarks ⟨rfl, fun h => hne (h.trans hr)⟩

/-- A mark takes effect on a row that is being sent only, and either it is a failure, which says when the row
is due, or the row is settled for good. -/
theorem Marks.settles (h : t.Marks request id) :
    ∃ r after, t.find? id = some r ∧ r.status = .sending ∧ (t.after request).find? id = some after ∧
      (after.status.isTerminal ∨ ∃ cause delay now, request = .markFailed id cause delay now ∧
        after.status = .failed ∧ after.nextRetryAt = now.after delay) := by
  obtain ⟨hmark, hne⟩ := h
  have hchange := change_after t request id
  generalize t.find? id = found at hchange hne ⊢
  generalize (t.after request).find? id = left at hchange hne ⊢
  cases hchange with
  | kept => exact absurd rfl hne
  | saved | claimed => cases hmark
  | published r _ hsending => exact ⟨r, _, rfl, hsending, rfl, .inl rfl⟩
  | failed r hsending => exact ⟨r, _, rfl, hsending, rfl, .inr ⟨_, _, _, rfl, rfl, rfl⟩⟩
  | deadLettered r hsending => exact ⟨r, _, rfl, hsending, rfl, .inl rfl⟩

/-! ### Where a row stands -/

/-- The row of an id is being sent, and was claimed at a time. -/
def SentAt (t : Table) (id : Int) (now : Instant) : Prop :=
  ∃ r, t.find? id = some r ∧ r.status = .sending ∧ r.updatedAt = now

/-- The row of an id has failed and is due at a time. -/
def DueAt (t : Table) (id : Int) (now : Instant) : Prop :=
  ∃ r, t.find? id = some r ∧ r.status = .failed ∧ r.nextRetryAt = now

/-- The row of an id is published or dead. -/
def Over (t : Table) (id : Int) : Prop := ∃ r, t.find? id = some r ∧ r.status.isTerminal

section Claimable

variable {p : Partition} {limit : Nat} {stuck : Span}

theorem SentAt.lt_of_hands {since : Instant} (h : t.SentAt id since)
    (hands : t.Hands (.claim p limit now stuck) id) : since.nanos < now.nanos - stuck.shift.nanos := by
  obtain ⟨r, hr, hsending, rfl⟩ := h
  obtain ⟨found, hfound, hdue, -⟩ := hands.stamped
  cases hr.symm.trans hfound
  simp only [Row.isClaimable?, hsending, Option.map_eq_some_iff, decide_eq_true_eq] at hdue
  obtain ⟨bound, hbound, hlt⟩ := hdue
  rw [← Instant.nanos_of_minus? hbound]
  exact hlt

theorem DueAt.le_of_hands {due : Instant} (h : t.DueAt id due)
    (hands : t.Hands (.claim p limit now stuck) id) : due ≤ now := by
  obtain ⟨r, hr, hfailed, rfl⟩ := h
  obtain ⟨found, hfound, hdue, -⟩ := hands.stamped
  cases hr.symm.trans hfound
  simpa [Row.isClaimable?, hfailed] using hdue

theorem Over.not_hands (h : t.Over id) : ¬t.Hands request id := by
  intro hands
  obtain ⟨r, hr, hover⟩ := h
  cases request with
  | claim p limit now stuck =>
    obtain ⟨found, hfound, hdue, -⟩ := hands.stamped
    cases hr.symm.trans hfound
    cases hs : r.status <;> simp_all [Row.isClaimable?, Status.isTerminal]
  | _ => exact hands

end Claimable

theorem sentAt_after {p : Partition} {limit : Nat} {stuck : Span} (h : t.Hands (.claim p limit now stuck) id) :
    (t.after (.claim p limit now stuck)).SentAt id now := by
  obtain ⟨r, -, -, hafter⟩ := h.stamped
  exact ⟨_, hafter, rfl, rfl⟩

/-- Only a row that is being sent is marked with effect. -/
theorem Marks.exists_sentAt (h : t.Marks request id) : ∃ since, t.SentAt id since := by
  obtain ⟨r, -, hr, hsending, -⟩ := h.settles
  exact ⟨r.updatedAt, r, hr, hsending, rfl⟩

theorem DueAt.not_marks {due : Instant} (h : t.DueAt id due) : ¬t.Marks request id := by
  intro hmarks
  obtain ⟨since, r, hr, hsending, -⟩ := hmarks.exists_sentAt
  obtain ⟨r', hr', hfailed, -⟩ := h
  cases hr.symm.trans hr'
  cases hsending.symm.trans hfailed

theorem Over.not_marks (h : t.Over id) : ¬t.Marks request id := by
  intro hmarks
  obtain ⟨since, r, hr, hsending, -⟩ := hmarks.exists_sentAt
  obtain ⟨r', hr', hover⟩ := h
  cases hr.symm.trans hr'
  simp [hsending, Status.isTerminal] at hover

/-! ### Many calls -/

/-- A row that is published or dead stays so, and is neither claimed nor marked again. -/
theorem Over.run (h : t.Over id) (requests : List Request) :
    Unclaimed id t requests ∧ marksOn id t requests = [] ∧ (t.run requests).Over id := by
  induction requests generalizing t with
  | nil => exact ⟨trivial, rfl, h⟩
  | cons request rest ih =>
    obtain ⟨r, hr, hover⟩ := h
    have hhands : ¬t.Hands request id := Over.not_hands ⟨r, hr, hover⟩
    have hmarks : ¬t.Marks request id := Over.not_marks ⟨r, hr, hover⟩
    obtain ⟨hunclaimed, hnone, hend⟩ := ih ⟨r, find?_after_of_quiet hr hhands hmarks, hover⟩
    exact ⟨⟨hhands, hunclaimed⟩, by rw [marksOn, if_neg hmarks, hnone], hend⟩

/-- A failed row is not marked again before it is claimed. -/
theorem DueAt.run {due : Instant} (h : t.DueAt id due) (requests : List Request)
    (hunclaimed : Unclaimed id t requests) : marksOn id t requests = [] ∧ (t.run requests).DueAt id due := by
  induction requests generalizing t with
  | nil => exact ⟨rfl, h⟩
  | cons request rest ih =>
    obtain ⟨r, hr, hdue⟩ := h
    have hmarks : ¬t.Marks request id := DueAt.not_marks ⟨r, hr, hdue⟩
    obtain ⟨hnone, hend⟩ := ih ⟨r, find?_after_of_quiet hr hunclaimed.1 hmarks, hdue⟩ hunclaimed.2
    exact ⟨by rw [marksOn, if_neg hmarks, hnone], hend⟩

/-- What has become of a claimed row that is not claimed again: nothing, one failure, or it is settled. -/
theorem SentAt.run {since : Instant} (h : t.SentAt id since) (requests : List Request)
    (hunclaimed : Unclaimed id t requests) :
    (marksOn id t requests = [] ∧ (t.run requests).SentAt id since) ∨
    (∃ cause delay now, marksOn id t requests = [.markFailed id cause delay now] ∧
      (t.run requests).DueAt id (now.after delay)) ∨
    (t.run requests).Over id := by
  induction requests generalizing t with
  | nil => exact .inl ⟨rfl, h⟩
  | cons request rest ih =>
    obtain ⟨hhands, hrest⟩ := hunclaimed
    rw [marksOn, run_cons]
    split
    · next hmarks =>
      obtain ⟨-, after, -, -, hafter, hover | ⟨cause, delay, now, rfl, hfailed, hdue⟩⟩ := hmarks.settles
      · exact .inr (.inr (Over.run ⟨after, hafter, hover⟩ rest).2.2)
      · obtain ⟨hnone, hend⟩ := DueAt.run ⟨after, hafter, hfailed, hdue⟩ rest hrest
        exact .inr (.inl ⟨cause, delay, now, by rw [hnone], hend⟩)
    · next hmarks =>
      obtain ⟨r, hr, hsent⟩ := h
      exact ih ⟨r, find?_after_of_quiet hr hhands hmarks, hsent⟩ hrest

/-- What has become of a claimed row, claimed again or not: unless it failed or is settled, its last claim was
no earlier than the first. -/
theorem SentAt.run_le {since : Instant} (h : t.SentAt id since) (requests : List Request) :
    (∃ last, since ≤ last ∧ (t.run requests).SentAt id last) ∨
    (∃ cause delay now, .markFailed id cause delay now ∈ marksOn id t requests) ∨
    (t.run requests).Over id := by
  induction requests generalizing t since with
  | nil => exact .inl ⟨since, Int.le_refl _, h⟩
  | cons request rest ih =>
    rw [marksOn, run_cons]
    split
    · next hmarks =>
      obtain ⟨-, after, -, -, hafter, hover | ⟨cause, delay, now, rfl, -, -⟩⟩ := hmarks.settles
      · exact .inr (.inr (Over.run ⟨after, hafter, hover⟩ rest).2.2)
      · exact .inr (.inl ⟨cause, delay, now, List.mem_cons_self⟩)
    · next hmarks =>
      by_cases hhands : t.Hands request id
      · cases request with
        | claim p limit now stuck =>
          have hlt := h.lt_of_hands hhands
          rcases ih (sentAt_after hhands) with ⟨last, hle, hlast⟩ | hfailed | hover
          · have hlater : since ≤ last := by
              change since.nanos ≤ last.nanos
              change now.nanos ≤ last.nanos at hle
              omega
            exact .inl ⟨last, hlater, hlast⟩
          · exact .inr (.inl hfailed)
          · exact .inr (.inr hover)
        | _ => exact False.elim hhands
      · obtain ⟨r, hr, hsent⟩ := h
        exact ih ⟨r, find?_after_of_quiet hr hhands hmarks, hsent⟩

/-! ### Claims of one row -/

/-- No row is claimed a second time without need. If of two claims that return a row none between them does,
then either one mark took effect on the row between them, a failure, and the second claim comes no earlier than
the row was due, or none did, and the first claim lies more than the second one's threshold back. A row that
was marked as published or dead is not returned again. Any two claims of a row of which the second comes within
its threshold of the first have a failure of the row between them. -/
theorem second_claim_justified (t : Table) (id : Int) :
    (∀ (first second : Claim) (between : List Request), t.Hands first.request id →
      Unclaimed id (t.after first.request) between →
      ((t.after first.request).run between).Hands second.request id →
      (∃ cause delay now, marksOn id (t.after first.request) between = [.markFailed id cause delay now] ∧
        now.after delay ≤ second.now) ∨
      (marksOn id (t.after first.request) between = [] ∧
        first.now.nanos < second.now.nanos - second.stuck.shift.nanos)) ∧
    (∀ (mark : Request) (later : List Request), t.Marks mark id →
      (∃ ids now, mark = .markPublished ids now) ∨ (∃ other cause now, mark = .markDead other cause now) →
      Unclaimed id (t.after mark) later) ∧
    (∀ (first second : Claim) (between : List Request), t.Hands first.request id →
      ((t.after first.request).run between).Hands second.request id →
      second.now.nanos - second.stuck.shift.nanos ≤ first.now.nanos →
      ∃ cause delay now, .markFailed id cause delay now ∈ marksOn id (t.after first.request) between) := by
  refine ⟨fun first second between hfirst hbetween hsecond => ?_, fun mark later hmarks hkind => ?_,
    fun first second between hfirst hsecond hnear => ?_⟩
  · rcases (sentAt_after hfirst).run between hbetween with
      ⟨hnone, hsent⟩ | ⟨cause, delay, now, hone, hdue⟩ | hover
    · exact .inr ⟨hnone, hsent.lt_of_hands hsecond⟩
    · exact .inl ⟨cause, delay, now, hone, hdue.le_of_hands hsecond⟩
    · exact absurd hsecond hover.not_hands
  · obtain ⟨-, after, -, -, hafter, hover | ⟨cause, delay, now, rfl, -, -⟩⟩ := hmarks.settles
    · exact (Over.run ⟨after, hafter, hover⟩ later).1
    · rcases hkind with ⟨_, _, hkind⟩ | ⟨_, _, _, hkind⟩ <;> cases hkind
  · rcases (sentAt_after hfirst).run_le between with ⟨last, hle, hlast⟩ | hfailed | hover
    · have hlt := hlast.lt_of_hands hsecond
      change first.now.nanos ≤ last.nanos at hle
      omega
    · exact hfailed
    · exact absurd hsecond hover.not_hands

/-- A table with one row, which is pending. -/
def single : Table :=
  (save {} {
    id := 1, aggregateType := "Order", aggregateId := "order-1", kind := "OrderPlaced"
    payload := [123, 125], createdAt := .epoch }).2

/-- The row of `single` is claimed and fails, and is claimed again when it is due; or it is published. -/
theorem single_claimed_again :
    let first : Claim := ⟨.whole, 10, .epoch, .ofSeconds 60⟩
    let second : Claim := ⟨.whole, 10, { nanos := 5000000000 }, .ofSeconds 60⟩
    let between := [Request.markFailed 1 "broker down" (.ofSeconds 5) .epoch]
    let claimed := single.after first.request
    ((∃ cause delay now, marksOn 1 claimed between = [.markFailed 1 cause delay now] ∧ now.after delay ≤ second.now) ∨
      (marksOn 1 claimed between = [] ∧ first.now.nanos < second.now.nanos - second.stuck.shift.nanos)) ∧
    Unclaimed 1 (claimed.after (.markPublished [1] .epoch)) [second.request] ∧
    ∃ cause delay now, .markFailed 1 cause delay now ∈ marksOn 1 claimed between := by
  intro first second between claimed
  obtain ⟨again, settled, failed⟩ := second_claim_justified single 1
  have hfirst : single.Hands first.request 1 := by decide +kernel
  have hsecond : ((single.after first.request).run between).Hands second.request 1 := by decide +kernel
  exact ⟨again first second between hfirst ⟨by decide +kernel, trivial⟩ hsecond,
    (second_claim_justified claimed 1).2.1 (.markPublished [1] .epoch) [second.request] (by decide +kernel)
      (.inl ⟨_, _, rfl⟩),
    failed first second between hfirst hsecond (by decide)⟩

/-- A threshold too long for a date to be moved by it counts as a century: a claim 101 years after another
returns its row again although the threshold is not over. -/
theorem single_claimed_within_threshold :
    ¬∀ (t : Table) (id : Int) (first second : Claim) (between : List Request), t.Hands first.request id →
      Unclaimed id (t.after first.request) between →
      ((t.after first.request).run between).Hands second.request id →
      (∃ cause delay now, marksOn id (t.after first.request) between = [.markFailed id cause delay now] ∧
        now.after delay ≤ second.now) ∨
      (marksOn id (t.after first.request) between = [] ∧
        first.now.nanos < second.now.nanos - second.stuck.nanos) := by
  intro h
  rcases h single 1 ⟨.whole, 10, .epoch, .ofSeconds 9223372036854776⟩
    ⟨.whole, 10, { nanos := 3185136000000000000 }, .ofSeconds 9223372036854776⟩ [] (by decide +kernel) trivial
    (by decide +kernel) with ⟨_, _, _, hone, -⟩ | ⟨-, hlt⟩
  · cases hone
  · exact absurd hlt (by decide)

end Table

end Outbox
