import Outbox.Postgres.Statement
import Outbox.Proofs.Store.Lookup

/-! The rows that may be claimed, by the table's own test and by the condition of the claim statement. Where times are
whole microseconds the condition holds for a row exactly if the table's test does and no remainder is negative: the
server's remainder of a negative id is never the index of a partition, unless it is zero. Where `now` less the threshold
is no date the table has no answer about rows that are being sent, and the condition does not hold for them. -/

namespace Outbox

/-- A whole number of microseconds. -/
def Instant.IsMicros (i : Instant) : Prop := i.nanos % 1000 = 0

/-- A whole number of microseconds. -/
def Span.IsMicros (s : Span) : Prop := s.nanos % 1000 = 0

theorem Span.IsMicros.shift {s : Span} (h : s.IsMicros) : s.shift.IsMicros := by
  rw [Span.shift]
  split
  · exact h
  · rfl

theorem Instant.IsMicros.before {i : Instant} {s : Span} (hi : i.IsMicros) (hs : s.IsMicros) :
    (i.before s).IsMicros := by
  have hshift : s.shift.nanos % 1000 = 0 := hs.shift
  rw [IsMicros] at hi ⊢
  rw [Instant.before, minus?, ofNanos?]
  split
  · change (i.nanos - (s.shift.nanos : Int)) % 1000 = 0
    omega
  · rfl

namespace Postgres

/-! ### Operands -/

theorem serverTime_mul {i : Instant} (h : i.IsMicros) : serverTime i * 1000 = i.nanos - serverEpoch * 1000 := by
  rw [Instant.IsMicros] at h
  exact Int.tdiv_mul_cancel (Int.dvd_of_emod_eq_zero (by omega))

theorem serverTime_le_iff {i j : Instant} (hi : i.IsMicros) (hj : j.IsMicros) : serverTime i ≤ serverTime j ↔ i ≤ j := by
  have := serverTime_mul hi
  have := serverTime_mul hj
  change _ ↔ i.nanos ≤ j.nanos
  omega

theorem serverTime_lt_iff {i j : Instant} (hi : i.IsMicros) (hj : j.IsMicros) : serverTime i < serverTime j ↔ i < j := by
  have := serverTime_mul hi
  have := serverTime_mul hj
  change _ ↔ i.nanos < j.nanos
  omega

/-- A remainder that takes the sign of the dividend is an index of a partition only for ids that the partition owns. -/
theorem tmod_eq_index_iff (p : Partition) (id : Int) :
    Int.tmod id p.total = p.index ↔ p.owns id ∧ (0 ≤ id ∨ p.index = 0) := by
  have hindex := p.index_lt
  have hlt := Int.emod_lt_of_pos id (b := p.total) (by omega)
  have hnonneg := Int.emod_nonneg id (b := p.total) (by omega)
  rw [Partition.owns, beq_iff_eq, Int.tmod_eq_emod]
  split
  · omega
  · next hneg =>
    obtain ⟨hid, hdvd⟩ := not_or.1 hneg
    have hne : id % p.total ≠ 0 := fun h => hdvd (Int.dvd_of_emod_eq_zero h)
    rw [Int.natAbs_natCast]
    omega

/-! ### The condition -/

/-- Whether a claim statement selects a row. -/
def selects (p : Partition) (limit : Nat) (now : Instant) (stuck : Span) (token : Token) (r : Row) : Bool :=
  Condition.claimable.holds (Statement.claim p limit now stuck token).parameters r

/-- The status and the times that the condition of a claim asks for. -/
def isRipe (now : Instant) (stuck : Span) (r : Row) : Bool :=
  [Status.pending, .failed].contains r.status && decide (serverTime r.nextRetryAt ≤ serverTime now) ||
    [Status.sending].contains r.status && decide (serverTime r.updatedAt < serverTime (now.before stuck))

theorem selects_eq (p : Partition) (limit : Nat) (now : Instant) (stuck : Span) (token : Token) (r : Row) :
    selects p limit now stuck token r =
      (isRipe now stuck r && ((p.total : Int) == 1 || Int.tmod r.id p.total == p.index)) := rfl

theorem isRipe_iff {now : Instant} {stuck : Span} {r : Row} (hupdated : r.updatedAt.IsMicros)
    (hretry : r.nextRetryAt.IsMicros) (hnow : now.IsMicros) (hstuck : stuck.IsMicros) :
    isRipe now stuck r ↔ r.isClaimable? now stuck = some true := by
  rw [isRipe, Row.isClaimable?]
  cases r.status with
  | pending | failed => simp [serverTime_le_iff hretry hnow]
  | published | deadLettered => simp
  | sending =>
    have hlt := serverTime_lt_iff hupdated (hnow.before hstuck)
    rw [Instant.before] at hlt ⊢
    cases hlimit : now.minus? stuck with
    | some limit =>
      rw [hlimit] at hlt
      simpa using hlt
    | none =>
      -- Nothing is earlier than the first date, at which the threshold is then taken to lie.
      have hfirst : ¬r.updatedAt < Instant.first := Int.not_lt.2 r.updatedAt.first_le
      rw [hlimit] at hlt
      simpa using Int.not_lt.1 (mt hlt.1 hfirst)

theorem owner_iff (p : Partition) (id : Int) :
    ((p.total : Int) == 1 || Int.tmod id p.total == p.index) ↔ p.owns id ∧ (0 ≤ id ∨ p.index = 0) := by
  rw [Bool.or_eq_true, beq_iff_eq, beq_iff_eq, tmod_eq_index_iff]
  refine ⟨?_, .inr⟩
  rintro (hwhole | h)
  · have hindex := p.index_lt
    rw [Partition.owns, hwhole, Int.emod_one, beq_iff_eq]
    omega
  · exact h

/-- The condition stands in the text of a claim, which takes the oldest of the rows that it holds for. -/
theorem claimText_where : ∃ rest, Statement.claimText =
    "WITH claimable AS ( SELECT event_id FROM outbox_events WHERE " ++ Condition.claimable.text ++
      " ORDER BY created_at ASC LIMIT $5 " ++ rest :=
  ⟨"FOR UPDATE SKIP LOCKED ) UPDATE outbox_events AS e SET status = 'SENDING', " ++
    "attempt_count = e.attempt_count + 1, updated_at = $1, claimed_by = $6 FROM claimable " ++
    "WHERE e.event_id = claimable.event_id RETURNING " ++ Statement.commas (Statement.claimedColumns.map ("e." ++ ·)),
    by decide +kernel⟩

/-- The table has an answer about every row but those of its partition that are being sent while `now` less the
threshold is no date; and a claim statement selects exactly the rows of which the answer is that they may be claimed,
except those with negative ids in a partition of an index other than zero. The condition by which it selects is that of
its text. -/
theorem selects_iff_due (p : Partition) (limit : Nat) (token : Token) {now : Instant} {stuck : Span} {r : Row}
    (hupdated : r.updatedAt.IsMicros) (hretry : r.nextRetryAt.IsMicros) (hnow : now.IsMicros)
    (hstuck : stuck.IsMicros) :
    (r.isDue? p now stuck = none ↔ p.owns r.id ∧ r.status = .sending ∧ now.minus? stuck = none) ∧
      (selects p limit now stuck token r ↔ r.isDue? p now stuck = some true ∧ (0 ≤ r.id ∨ p.index = 0)) ∧
      ∃ rest, (Statement.claim p limit now stuck token).text =
        "WITH claimable AS ( SELECT event_id FROM outbox_events WHERE " ++ Condition.claimable.text ++
          " ORDER BY created_at ASC LIMIT $5 " ++ rest := by
  refine ⟨r.isDue?_eq_none_iff p now stuck, ?_, claimText_where⟩
  rw [selects_eq, Bool.and_eq_true, isRipe_iff hupdated hretry hnow hstuck, owner_iff, Row.isDue?]
  cases p.owns r.id <;> simp

/-- A row that is being sent since the epoch. -/
def early (id : Int) : Row where
  event := { id := id, aggregateType := "Order", aggregateId := "order-1", kind := "OrderPlaced", payload := []
             createdAt := .epoch }
  status := .sending
  updatedAt := .epoch
  nextRetryAt := .epoch

/-- The row is selected one microsecond past its threshold, and not yet at it. -/
theorem early_selected :
    selects ⟨1, 2, by decide⟩ 100 { nanos := 60000001000 } (.ofSeconds 60) ⟨0⟩ (early 3) = true ∧
      selects ⟨1, 2, by decide⟩ 100 { nanos := 60000000000 } (.ofSeconds 60) ⟨0⟩ (early 3) = false := by
  have hafter := (@selects_iff_due ⟨1, 2, by decide⟩ 100 ⟨0⟩ { nanos := 60000001000 } (.ofSeconds 60) (early 3)
    rfl rfl rfl rfl).2.1
  have hat := (@selects_iff_due ⟨1, 2, by decide⟩ 100 ⟨0⟩ { nanos := 60000000000 } (.ofSeconds 60) (early 3)
    rfl rfl rfl rfl).2.1
  exact ⟨hafter.2 (by decide +kernel), Bool.eq_false_iff.2 fun h => absurd (hat.1 h).1 (by decide +kernel)⟩

/-- The two tests differ: the table has no answer for a threshold that lies before all dates, and the statement passes
over the negative ids that the table claims. -/
theorem early_differs :
    (¬∀ (p : Partition) (now : Instant) (stuck : Span) (r : Row), r.updatedAt.IsMicros → r.nextRetryAt.IsMicros →
      now.IsMicros → stuck.IsMicros → (r.isDue? p now stuck).isSome) ∧
    ¬∀ (p : Partition) (limit : Nat) (now : Instant) (stuck : Span) (token : Token) (r : Row) (due : Bool),
      r.updatedAt.IsMicros → r.nextRetryAt.IsMicros → now.IsMicros → stuck.IsMicros →
      r.isDue? p now stuck = some due → (due ↔ selects p limit now stuck token r) := by
  refine ⟨fun h => ?_, fun h => ?_⟩
  · have hsome := h .whole .epoch (.ofSeconds 10000000000000) (early 1) rfl rfl rfl rfl
    exact absurd hsome (by decide +kernel)
  · have hboth := h ⟨1, 2, by decide⟩ 100 { nanos := 60000001000 } (.ofSeconds 60) ⟨0⟩ (early (-1)) true rfl rfl rfl rfl
      (by decide +kernel)
    exact absurd (hboth.1 rfl) (by decide +kernel)

end Postgres

end Outbox
