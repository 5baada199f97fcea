import Mathlib.Data.List.Perm.Basic
import Outbox.Proofs.Store.Lifecycle

/-! The queue of a partition: the rows that a claim may take, oldest first. Rows of a table have different ids, so the
age of rows is a strict order and the queue is the one strictly ordered list of its members. A claim hands out the front
of the queue and leaves all other rows, or it has no answer and leaves the whole table. -/

namespace Outbox

theorem Instant.eq_iff {i j : Instant} : i = j ↔ i.nanos = j.nanos := by
  cases i
  cases j
  simp

theorem Instant.minus?_eq_none_iff {now : Instant} {s : Span} :
    now.minus? s = none ↔ now.nanos - s.shift.nanos < Calendar.firstNanos := by
  have hlast := now.le_last
  simp only [minus?, ofNanos?, dite_eq_right_iff, reduceCtorEq, imp_false]
  omega

/-! ### The age of a row -/

namespace Row

variable {a b c r : Row} {now : Instant} {stuck : Span}

/-- The row is older than the other, or of one age with it and of the smaller id. -/
def Before (a b : Row) : Prop :=
  a.event.createdAt < b.event.createdAt ∨ a.event.createdAt = b.event.createdAt ∧ a.id < b.id

instance (a b : Row) : Decidable (a.Before b) := inferInstanceAs (Decidable (_ ∨ _ ∧ _))

theorem before_iff :
    a.Before b ↔ a.event.createdAt.nanos < b.event.createdAt.nanos ∨
      a.event.createdAt.nanos = b.event.createdAt.nanos ∧ a.id < b.id := by
  rw [Before, Instant.eq_iff]
  rfl

theorem Before.asymm (h : a.Before b) : ¬b.Before a := by
  rw [before_iff] at *
  omega

theorem Before.ne (h : a.Before b) : a ≠ b := by
  rintro rfl
  exact h.asymm h

theorem precedes_iff :
    a.precedes b ↔ a.event.createdAt.nanos < b.event.createdAt.nanos ∨
      a.event.createdAt.nanos = b.event.createdAt.nanos ∧ a.id ≤ b.id := by
  rw [precedes, Bool.or_eq_true, Bool.and_eq_true, decide_eq_true_iff, decide_eq_true_iff, decide_eq_true_iff,
    Instant.eq_iff]
  rfl

theorem precedes_trans (a b c : Row) (hab : a.precedes b) (hbc : b.precedes c) : a.precedes c := by
  rw [precedes_iff] at *
  omega

theorem precedes_total (a b : Row) : a.precedes b || b.precedes a := by
  rw [Bool.or_eq_true, precedes_iff, precedes_iff]
  omega

theorem before_of_precedes (h : a.precedes b) (hid : a.id ≠ b.id) : a.Before b := by
  rw [precedes_iff] at h
  rw [before_iff]
  omega

/-- Strictly ordered lists with the same members are equal. -/
theorem eq_of_before {l l' : List Row} (h : l.Pairwise Before) (h' : l'.Pairwise Before)
    (hmem : ∀ r, r ∈ l ↔ r ∈ l') : l = l' := by
  have hperm : l.Perm l' := (List.perm_ext_iff_of_nodup (h.imp Before.ne) (h'.imp Before.ne)).2 hmem
  exact hperm.eq_of_pairwise (fun a b _ _ hab hba => absurd hba hab.asymm) h h'

/-- The row waits and is due, or it is being sent since longer than the span. -/
def Ripe (r : Row) (now : Instant) (span : Span) : Prop :=
  (r.status = .pending ∨ r.status = .failed) ∧ r.nextRetryAt ≤ now ∨
    r.status = .sending ∧ r.updatedAt.nanos < now.nanos - span.nanos

instance (r : Row) (now : Instant) (span : Span) : Decidable (r.Ripe now span) := inferInstanceAs (Decidable (_ ∨ _))

theorem isClaimable?_iff : r.isClaimable? now stuck = some true ↔ r.Ripe now stuck.shift := by
  cases hstatus : r.status with
  | sending => simp [isClaimable?_sending hstatus, Ripe, hstatus]
  | pending | failed | published | deadLettered => simp [isClaimable?, Ripe, hstatus]

theorem isDue?_iff {p : Partition} :
    r.isDue? p now stuck = some true ↔ p.owns r.id ∧ r.isClaimable? now stuck = some true := by
  rw [isDue?]
  cases p.owns r.id <;> simp

end Row

namespace Table

variable {t t' : Table} {p : Partition} {limit : Nat} {now : Instant} {stuck : Span} {r : Row}

/-! ### The queue -/

/-- The rows of a partition that a claim may take, oldest first. -/
def queue (t : Table) (p : Partition) (now : Instant) (stuck : Span) : List Row :=
  (t.rows.filter fun r => r.isDue? p now stuck == some true).mergeSort Row.precedes

theorem mem_queue :
    r ∈ t.queue p now stuck ↔ r ∈ t.rows ∧ p.owns r.id ∧ r.isClaimable? now stuck = some true := by
  rw [queue, List.mem_mergeSort, List.mem_filter, beq_iff_eq, Row.isDue?_iff]

theorem pairwise_queue (t : Table) (p : Partition) (now : Instant) (stuck : Span) :
    (t.queue p now stuck).Pairwise Row.Before := by
  have hsorted : (t.queue p now stuck).Pairwise (fun a b => a.precedes b) :=
    List.pairwise_mergeSort Row.precedes_trans Row.precedes_total _
  have hids : ((t.queue p now stuck).map Row.id).Nodup := by
    rw [queue, ((List.mergeSort_perm _ _).map Row.id).nodup_iff]
    exact t.nodup_ids.sublist (List.filter_sublist.map _)
  exact (hsorted.and (List.pairwise_map.1 hids)).imp fun h => Row.before_of_precedes h.1 h.2

/-- The queue is the only strictly ordered list of the rows that a claim may take. -/
theorem queue_eq {l : List Row} (hl : l.Pairwise Row.Before)
    (hmem : ∀ r, r ∈ l ↔ r ∈ t.rows ∧ p.owns r.id ∧ r.isClaimable? now stuck = some true) :
    t.queue p now stuck = l :=
  Row.eq_of_before (t.pairwise_queue p now stuck) hl fun r => mem_queue.trans (hmem r).symm

/-! ### Handing out -/

/-- The table with some of its rows claimed. -/
def hand (t : Table) (chosen : List Row) (now : Instant) : Table :=
  t.mapRows (fun r => if r ∈ chosen then r.claimed t.token now else r) fun r => by
    split
    · exact r.id_claimed t.token now
    · rfl

@[simp] theorem token_hand (t : Table) (chosen : List Row) (now : Instant) : (t.hand chosen now).token = t.token := rfl

theorem rows_hand (t : Table) (chosen : List Row) (now : Instant) :
    (t.hand chosen now).rows = t.rows.map fun r => if r ∈ chosen then r.claimed t.token now else r := rfl

@[simp] theorem hand_nil (t : Table) (now : Instant) : t.hand [] now = t := by
  apply Table.ext
  · simp [rows_hand]
  · rfl

/-- It can be told of each row whether a claim may take it. -/
def Judged (t : Table) (p : Partition) (now : Instant) (stuck : Span) : Prop :=
  ∀ r ∈ t.rows, (r.isDue? p now stuck).isSome

theorem not_judged_iff :
    ¬t.Judged p now stuck ↔ (∃ r ∈ t.rows, p.owns r.id ∧ r.status = .sending) ∧ now.minus? stuck = none := by
  simp only [Judged, not_forall, Option.not_isSome_iff_eq_none, Row.isDue?_eq_none_iff]
  constructor
  · rintro ⟨r, hr, hown, hsending, hdate⟩
    exact ⟨⟨r, hr, hown, hsending⟩, hdate⟩
  · rintro ⟨⟨r, hr, hown, hsending⟩, hdate⟩
    exact ⟨r, hr, hown, hsending, hdate⟩

theorem judged_of_date (h : (now.minus? stuck).isSome) (t : Table) (p : Partition) : t.Judged p now stuck := by
  by_contra hblind
  rw [(not_judged_iff.1 hblind).2] at h
  cases h

theorem claimable?_eq (h : t.Judged p now stuck) :
    t.claimable? p now stuck = some (t.rows.filter fun r => r.isDue? p now stuck == some true) := by
  rw [claimable?_eq_filterM, filterM_eq_some_iff]
  exact ⟨h, rfl⟩

/-- A claim takes the front of the queue. -/
theorem claim_eq_queue (limit : Nat) (h : limit = 0 ∨ t.Judged p now stuck) :
    t.claim p limit now stuck = some (((t.queue p now stuck).take limit).map (·.claimed t.token now),
      t.hand ((t.queue p now stuck).take limit) now) := by
  rw [claim]
  split
  · next hzero => simp [hzero]
  · next hlimit =>
    rw [claimable?_eq (h.resolve_left hlimit), Option.map_some]
    refine congrArg some (Prod.ext rfl (Table.ext (List.map_congr_left fun r hr => ?_) rfl))
    -- Rows of the table are told apart by their ids.
    have hany : ((t.queue p now stuck).take limit).any (·.id == r.id) = decide (r ∈ (t.queue p now stuck).take limit) := by
      rw [Bool.eq_iff_iff, List.any_eq_true, decide_eq_true_iff]
      constructor
      · rintro ⟨a, ha, hid⟩
        rwa [← eq_of_id_eq (mem_queue.1 (List.mem_of_mem_take ha)).1 hr (beq_iff_eq.1 hid)]
      · exact fun hmem => ⟨r, hmem, beq_self_eq_true r.id⟩
    change (if ((t.queue p now stuck).take limit).any (·.id == r.id) then _ else _) = _
    simp only [hany, decide_eq_true_eq]

theorem claim_eq_none (hlimit : limit ≠ 0) (h : ¬t.Judged p now stuck) : t.claim p limit now stuck = none := by
  rw [claim, if_neg hlimit, claimable?_eq_filterM, Option.map_eq_none_iff, List.filterM, filterAuxM_eq,
    if_neg (show ¬∀ r ∈ t.rows, (r.isDue? p now stuck).isSome from h)]
  rfl

/-- No row is published or dead for being claimed, or no more so. -/
theorem count_hand {s : Status} (hs : s.isTerminal) {p : Partition} {now : Instant} {stuck : Span} {chosen : List Row}
    (h : ∀ r ∈ chosen, r ∈ t.queue p now stuck) : (t.hand chosen now).count s = t.count s := by
  rw [count, rows_hand, List.countP_map]
  refine List.countP_congr fun r _ => ?_
  rw [Function.comp_apply]
  split
  · next hr =>
    have hdue := Row.status_of_isClaimable? (mem_queue.1 (h r hr)).2.2
    have hopen : r.status ≠ s := by
      rintro rfl
      rcases hdue with hdue | hdue | hdue <;> rw [hdue] at hs <;> cases hs
    have hsent : Status.sending ≠ s := by
      rintro rfl
      cases hs
    simp only [Row.claimed, beq_iff_eq, hopen, hsent]
  · rfl

theorem count_claim {s : Status} (hs : s.isTerminal) {p : Partition} {limit : Nat} {now : Instant} {stuck : Span}
    {rows : List Row} (h : t.claim p limit now stuck = some (rows, t')) : t'.count s = t.count s := by
  have hjudged : limit = 0 ∨ t.Judged p now stuck := by
    by_contra hnot
    obtain ⟨hlimit, hblind⟩ := not_or.1 hnot
    cases h.symm.trans (claim_eq_none hlimit hblind)
  rw [claim_eq_queue limit hjudged] at h
  cases h
  exact count_hand hs fun r hr => List.mem_of_mem_take hr

end Table

/-! ### The answer to a claim -/

namespace Claim

/-- The claim has room for a row, a row of its partition is being sent, and its time less its threshold is no date, so
that the owner's silence cannot be judged. -/
def Aborts (c : Claim) (t : Table) : Prop :=
  0 < c.limit ∧ (∃ r ∈ t.rows, c.partition.owns r.id ∧ r.status = .sending) ∧
    c.now.nanos - c.stuck.shift.nanos < Calendar.firstNanos

instance (c : Claim) (t : Table) : Decidable (c.Aborts t) := inferInstanceAs (Decidable (_ ∧ _ ∧ _))

/-- The claim returns `rows` and leaves `t'`, where `due` are the rows that it may take. A row may be taken that is
being sent if this is so for longer than `span`. -/
structure Takes (c : Claim) (span : Span) (t : Table) (due rows : List Row) (t' : Table) : Prop where
  mem_due : ∀ r, r ∈ due ↔ r ∈ t.rows ∧ c.partition.owns r.id ∧ r.Ripe c.now span
  ordered : due.Pairwise Row.Before
  rows_eq : rows = (due.take c.limit).map fun r =>
    { r with status := .sending, attempt := r.attempt + 1, updatedAt := c.now, claimedBy := some t.token }
  length_eq : rows.length = min c.limit due.length
  oldest_first : rows.Pairwise Row.Before
  stored : ∀ r ∈ rows, t'.find? r.id = some r
  others_kept : ∀ id, (∀ r ∈ rows, r.id ≠ id) → t'.find? id = t.find? id
  token_eq : t'.token = t.token

end Claim

namespace Table

/-- All that a claim does. It aborts, and leaves the table, exactly where it would have to judge an owner's silence by
no date. Otherwise it returns the oldest of the rows that are due, as many as it has room for and in strict order, each
as it then stands in the table, being sent once more, now and by this table; and it leaves all other rows. -/
theorem claim_takes_oldest (t : Table) (c : Claim) :
    (c.Aborts t → t.answer c.request = (.error (.crash Row.dateOverflow), t)) ∧
    (¬c.Aborts t → ∃ (due rows : List Row) (t' : Table), t.answer c.request = (.ok rows, t') ∧
      c.Takes c.stuck.shift t due rows t') := by
  constructor
  · rintro ⟨hlimit, hsending, hdate⟩
    have hblind := not_judged_iff.2 ⟨hsending, Instant.minus?_eq_none_iff.2 hdate⟩
    rw [Claim.request, answer, claim_eq_none (Nat.ne_of_gt hlimit) hblind]
  · intro haborts
    have hjudged : c.limit = 0 ∨ t.Judged c.partition c.now c.stuck := by
      by_contra hnot
      obtain ⟨hlimit, hblind⟩ := not_or.1 hnot
      obtain ⟨hsending, hdate⟩ := not_judged_iff.1 hblind
      exact haborts ⟨Nat.pos_of_ne_zero hlimit, hsending, Instant.minus?_eq_none_iff.1 hdate⟩
    have hclaim := claim_eq_queue c.limit hjudged
    have hordered := t.pairwise_queue c.partition c.now c.stuck
    refine ⟨t.queue c.partition c.now c.stuck, _, _, answer_claim hclaim, fun r => ?_, hordered, rfl, ?_, ?_,
      fun r hr => ?_, fun id hid => ?_, rfl⟩
    · rw [mem_queue, Row.isClaimable?_iff]
    · rw [List.length_map, List.length_take]
    · exact List.pairwise_map.2 (hordered.sublist (List.take_sublist _ _))
    · obtain ⟨-, -, -, -, hstored⟩ := find?_after_claim hclaim hr
      exact hstored
    · exact find?_after_claim_of_notMem hclaim hid

/-- A row that is being sent since the epoch, and two pending ones of which the first is younger. -/
def mixed : Table :=
  let order (id : Int) (created : Instant) : Event :=
    { id, aggregateType := "Order", aggregateId := "order-1", kind := "OrderPlaced", payload := [123, 125]
      createdAt := created }
  run {} [.save (order 3 .epoch), .claim .whole 1 .epoch (.ofSeconds 60), .save (order 1 { nanos := 5000000000 }),
    .save (order 2 .epoch)]

/-- Of the rows of `mixed` the two oldest are claimed, unless no date lies the threshold back. -/
theorem mixed_claimed :
    let claim (limit : Nat) (stuck : Span) : Claim := ⟨.whole, limit, { nanos := 120000000000 }, stuck⟩
    mixed.answer (claim 2 (.ofSeconds 9000000000000)).request = (.error (.crash Row.dateOverflow), mixed) ∧
      ∃ (due rows : List Row) (t' : Table), mixed.answer (claim 2 (.ofSeconds 60)).request = (.ok rows, t') ∧
        (claim 2 (.ofSeconds 60)).Takes (.ofSeconds 60) mixed due rows t' := by
  intro claim
  have haborts := (claim_takes_oldest mixed (claim 2 (.ofSeconds 9000000000000))).1
  have htakes := (claim_takes_oldest mixed (claim 2 (.ofSeconds 60))).2
  exact ⟨haborts (by decide +kernel), htakes (by decide +kernel)⟩

example : ((mixed.answer (.claim .whole 2 { nanos := 120000000000 } (.ofSeconds 60))).1.map (·.map Row.id)).toOption =
    some [2, 3] := by
  cbv

/-- A threshold too long for a date to be moved by it counts as a century: a claim 101 years after another takes its row
although the threshold is not over. -/
theorem single_taken_within_threshold :
    ¬∀ (t : Table) (c : Claim), ¬c.Aborts t → ∃ (due rows : List Row) (t' : Table),
      t.answer c.request = (.ok rows, t') ∧ c.Takes c.stuck t due rows t' := by
  intro h
  let sent := single.after (.claim .whole 10 .epoch (.ofSeconds 9223372036854776))
  let late : Claim := ⟨.whole, 10, { nanos := 3185136000000000000 }, .ofSeconds 9223372036854776⟩
  obtain ⟨due, rows, t', hanswer, htakes⟩ := h sent late (by decide +kernel)
  have hunripe : ∀ r ∈ sent.rows, ¬r.Ripe late.now late.stuck := by decide +kernel
  have hnone : due = [] := by
    refine List.eq_nil_iff_forall_not_mem.2 fun r hr => ?_
    obtain ⟨hmem, -, hripe⟩ := (htakes.mem_due r).1 hr
    exact hunripe r hmem hripe
  have hrows : rows = [] := by
    rw [htakes.rows_eq, hnone]
    rfl
  have hkept := htakes.others_kept 1 (by simp [hrows])
  obtain rfl : sent.after late.request = t' := congrArg Prod.snd hanswer
  exact absurd hkept (by decide +kernel)

end Table

end Outbox
