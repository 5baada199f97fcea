import Mathlib.Data.List.Dedup
import Outbox.Postgres.Statement
import Outbox.Proofs.Store.Marking

/-! Marking ids as published one after the other is one update of a set of rows, the one that the statement of the
database makes: the rows that a list names and that are being sent are changed and counted once. Neither the order
of the list nor its repetitions matter. -/

namespace Outbox.Table

variable {t : Table} {p q : Row → Bool} {f : Row → Row} {keeps : ∀ r, (f r).id = r.id}

/-! ### Updates of rows -/

/-- Changes all rows that meet a condition at once, and counts them. -/
def update (t : Table) (p : Row → Bool) (f : Row → Row) (keeps : ∀ r, (f r).id = r.id) : Nat × Table :=
  (t.rows.countP p,
    t.mapRows (fun r => if p r then f r else r) fun r => by
      split
      · exact keeps r
      · rfl)

theorem update_of_none (h : ∀ r ∈ t.rows, ¬p r) : t.update p f keeps = (0, t) := by
  refine Prod.ext (List.countP_eq_zero.2 h) (Table.ext ?_ rfl)
  exact (List.map_congr_left fun r hr => if_neg (h r hr)).trans (List.map_id _)

/-- An update after which no changed row meets another condition goes before the one for that condition as a part of
the update for both. -/
theorem update_or (hf : ∀ r, p r → ¬q (f r)) (t : Table) :
    t.update (fun r => p r || q r) f keeps =
      ((t.update p f keeps).1 + ((t.update p f keeps).2.update q f keeps).1,
        ((t.update p f keeps).2.update q f keeps).2) := by
  refine Prod.ext ?_ (Table.ext ?_ rfl)
  · change t.rows.countP _ = t.rows.countP p + (t.rows.map _).countP q
    rw [List.countP_map]
    refine countP_eq_add fun r _ => ?_
    rw [Function.comp_apply]
    by_cases hp : p r
    · rw [if_pos hp, hp, eq_false_of_ne_true (hf r hp)]
      rfl
    · rw [if_neg hp, eq_false_of_ne_true hp, Bool.false_or, Bool.toNat_false, Nat.zero_add]
  · change t.rows.map _ = (t.rows.map _).map _
    rw [List.map_map]
    refine List.map_congr_left fun r _ => ?_
    by_cases hp : p r
    · simp [hp, hf r hp]
    · simp [hp]

/-! ### Marks of published rows -/

/-- The row is being sent and the list names it. -/
def listed (ids : List Int) (r : Row) : Bool := decide (r.id ∈ ids) && r.status == .sending

theorem listed_iff {ids : List Int} {r : Row} : listed ids r ↔ r.id ∈ ids ∧ r.status = .sending := by
  simp [listed]

theorem listed_eq {ids others : List Int} (h : ∀ id, id ∈ ids ↔ id ∈ others) : listed ids = listed others := by
  funext r
  simp only [listed, h]

theorem listed_append (ids others : List Int) : listed (ids ++ others) = fun r => listed ids r || listed others r := by
  funext r
  simp only [listed, List.mem_append, Bool.decide_or, Bool.and_or_distrib_right]

theorem not_listed_published (ids : List Int) (r : Row) (now : Instant) : ¬listed ids (r.published now) := fun h =>
  nomatch (listed_iff.1 h).2

/-- The rows that the statement of a mark selects are those that it lists and that are being sent. -/
theorem holds_sendingMany (ids : List Int) (now : Instant) (r : Row) :
    Postgres.Condition.sendingMany.holds (Postgres.Statement.markPublished ids now).parameters r = listed ids r := by
  change (ids.contains r.id && [Status.sending].contains r.status) = _
  rw [Bool.eq_iff_iff, listed_iff, Bool.and_eq_true, List.contains_iff_mem, List.contains_iff_mem,
    List.mem_singleton]

theorem markPublished_cons (t : Table) (now : Instant) (id : Int) (ids : List Int) :
    t.markPublished now (id :: ids) =
      ((t.update (listed [id]) (·.published now) (·.id_published now)).1 +
          ((t.update (listed [id]) (·.published now) (·.id_published now)).2.markPublished now ids).1,
        ((t.update (listed [id]) (·.published now) (·.id_published now)).2.markPublished now ids).2) := by
  have hlisted : (fun r : Row => r.isSendingAs id) = listed [id] := by
    funext r
    rw [Bool.eq_iff_iff, isSendingAs_iff, listed_iff, List.mem_singleton]
  have hone : t.settle id (·.published now) (·.id_published now) =
      (t.rows.any (listed [id]), (t.update (listed [id]) (·.published now) (·.id_published now)).2) := by
    rw [← hlisted]
    rfl
  have hcount : (t.rows.any (listed [id])).toNat = t.rows.countP (listed [id]) := by
    rw [← hlisted, countP_isSendingAs]
  rw [markPublished, hone]
  dsimp only
  rw [hcount, Nat.add_comm]
  rfl

/-- Rows marked one after the other are those of one update. -/
theorem markPublished_eq_update (t : Table) (now : Instant) (ids : List Int) :
    t.markPublished now ids = t.update (listed ids) (·.published now) (·.id_published now) := by
  induction ids generalizing t with
  | nil => exact (update_of_none fun r _ h => List.not_mem_nil (listed_iff.1 h).1).symm
  | cons id ids ih =>
    have hboth : listed (id :: ids) = fun r => listed [id] r || listed ids r := listed_append [id] ids
    rw [markPublished_cons, ih, hboth, update_or fun r _ => not_listed_published ids r now]

theorem markPublished_append (t : Table) (now : Instant) (ids others : List Int) :
    t.markPublished now (ids ++ others) =
      ((t.markPublished now ids).1 + ((t.markPublished now ids).2.markPublished now others).1,
        ((t.markPublished now ids).2.markPublished now others).2) := by
  rw [markPublished_eq_update, listed_append, update_or fun r _ => not_listed_published others r now]
  simp only [markPublished_eq_update]

theorem markPublished_eq_of_mem_iff {ids others : List Int} (h : ∀ id, id ∈ ids ↔ id ∈ others) (t : Table)
    (now : Instant) : t.markPublished now ids = t.markPublished now others := by
  rw [markPublished_eq_update, markPublished_eq_update, listed_eq h]

/-- After a mark no row that it lists is being sent. -/
theorem markPublished_again (t : Table) (now later : Instant) (ids : List Int) :
    (t.markPublished now ids).2.markPublished later ids = (0, (t.markPublished now ids).2) := by
  rw [markPublished_eq_update, markPublished_eq_update]
  refine update_of_none fun r hr hlisted => ?_
  obtain ⟨before, -, rfl⟩ := List.mem_map.1 hr
  split at hlisted
  · exact not_listed_published ids before now hlisted
  · next hnot => exact hnot hlisted

theorem fst_markPublished_eq_dedup (t : Table) (now : Instant) (ids : List Int) :
    (t.markPublished now ids).1 = ids.dedup.countP t.sends := by
  rw [← fst_markPublished_eq now ids.nodup_dedup]
  exact congrArg Prod.fst (markPublished_eq_of_mem_iff (fun _ => List.mem_dedup.symm) t now)

/-- A mark of published rows is one update under the condition of the statement that the database is sent. It counts
the ids of the list, each once, whose rows are being sent. Just these rows become published with the time of the mark
and no error, and keep all else, and all others are as they were. Any list with the same members is marked with the
same count and table, a list in two parts as one part after the other with the counts added, and a list that was
marked is not changed or counted again, at whatever time. -/
theorem markPublished_is_update (t : Table) (now : Instant) (ids : List Int) :
    let chosen (r : Row) : Bool :=
      Postgres.Condition.sendingMany.holds (Postgres.Statement.markPublished ids now).parameters r
    let marked := t.markPublished now ids
    (Postgres.Statement.markPublished ids now).text = Postgres.Statement.updateText
      "status = 'PUBLISHED', updated_at = $2, last_error = NULL" Postgres.Condition.sendingMany ∧
    (∀ r, chosen r ↔ r.id ∈ ids ∧ r.status = .sending) ∧
    marked.1 = t.rows.countP chosen ∧
    marked.1 = ids.dedup.countP t.sends ∧
    marked.2.rows = t.rows.map (fun r =>
      if chosen r then { r with status := .published, updatedAt := now, lastError := none } else r) ∧
    marked.2.token = t.token ∧
    (∀ others, (∀ id, id ∈ others ↔ id ∈ ids) → t.markPublished now others = marked) ∧
    (∀ others, t.markPublished now (ids ++ others) =
      (marked.1 + (marked.2.markPublished now others).1, (marked.2.markPublished now others).2)) ∧
    ∀ later, marked.2.markPublished later ids = (0, marked.2) := by
  intro chosen marked
  have hchosen : chosen = listed ids := funext fun r => holds_sendingMany ids now r
  have hupdate : marked = t.update chosen (·.published now) (·.id_published now) := by
    rw [hchosen]
    exact markPublished_eq_update t now ids
  refine ⟨rfl, fun r => ?_, congrArg Prod.fst hupdate, fst_markPublished_eq_dedup t now ids,
    congrArg (·.2.rows) hupdate, congrArg (·.2.token) hupdate, fun others h => markPublished_eq_of_mem_iff h t now,
    markPublished_append t now ids, fun later => markPublished_again t now later ids⟩
  rw [hchosen, listed_iff]

/-- The row of `single` is being sent, and a list names it twice among an id that no row has. -/
theorem single_marked_once :
    let sent := single.after (.claim .whole 10 .epoch (.ofSeconds 60))
    let marked := sent.markPublished { nanos := 5000000000 } [1, 7, 1]
    marked.1 = 1 ∧ sent.markPublished { nanos := 5000000000 } [7, 1] = marked ∧
    marked.2.markPublished .last [1, 7, 1] = (0, marked.2) := by
  intro sent marked
  obtain ⟨-, -, -, hcount, -, -, hsame, -, hagain⟩ := markPublished_is_update sent { nanos := 5000000000 } [1, 7, 1]
  exact ⟨hcount.trans (by decide +kernel), hsame [7, 1] (by simp), hagain .last⟩

end Outbox.Table
