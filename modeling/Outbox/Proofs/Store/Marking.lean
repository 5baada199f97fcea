import Outbox.Proofs.Store.History

/-! What a mark is asked for and what it says. It changes at most the rows that it names, takes effect on those
of them that are being sent, whoever claimed them, and counts just these. -/

namespace Outbox

namespace Request

/-- The ids of the rows that a call marks. -/
def targets : Request → List Int
  | .markPublished ids _ => ids
  | .markFailed id _ _ _ | .markDead id _ _ => [id]
  | .save _ | .claim _ _ _ _ | .counts => []

/-- How many rows were marked, by the answer. -/
def tally : (r : Request) → r.Answer → Nat
  | .markPublished _ _, count => count
  | .markFailed _ _ _ _, marked | .markDead _ _ _, marked => marked.toNat
  | .save _, _ | .claim _ _ _ _, _ | .counts, _ => 0

/-- The status of a row that a call marks. -/
def verdict? : Request → Option Status
  | .markPublished _ _ => some .published
  | .markFailed _ _ _ _ => some .failed
  | .markDead _ _ _ => some .deadLettered
  | .save _ | .claim _ _ _ _ | .counts => none

theorem isMark_of_mem_targets {r : Request} {id : Int} (h : id ∈ r.targets) : r.isMark := by
  cases r with
  | markPublished | markFailed | markDead => rfl
  | save | claim | counts => cases h

end Request

namespace Table

variable {t : Table} {request : Request} {id : Int}

/-- The row of an id is being sent. -/
def sends (t : Table) (id : Int) : Bool := (t.find? id).any fun r => r.status == .sending

theorem sends_iff : t.sends id ↔ ∃ r, t.find? id = some r ∧ r.status = .sending := by
  simp [sends, Option.any_eq_true]

/-- A mark changes no row that it does not name. -/
theorem find?_after_mark_of_notMem (hmark : request.isMark) (h : id ∉ request.targets) :
    (t.after request).find? id = t.find? id := by
  have hchange := change_after t request id
  generalize t.find? id = found at hchange ⊢
  generalize (t.after request).find? id = left at hchange ⊢
  cases hchange with
  | kept => rfl
  | saved | claimed => cases hmark
  | published r hid => exact absurd hid h
  | failed | deadLettered => exact absurd List.mem_cons_self h

theorem fst_settle_eq (t : Table) (id : Int) (f : Row → Row) (keeps : ∀ r, (f r).id = r.id) :
    (t.settle id f keeps).1 = t.sends id := by
  rw [Bool.eq_iff_iff, fst_settle, sends_iff]

theorem not_sends_settle (t : Table) (id : Int) (f : Row → Row) (keeps : ∀ r, (f r).id = r.id)
    (hf : ∀ r, (f r).status ≠ .sending) : ¬(t.settle id f keeps).2.sends id := by
  rw [sends_iff, find?_settle]
  rintro ⟨after, hafter, hsending⟩
  obtain ⟨r, hr, rfl⟩ := Option.map_eq_some_iff.1 hafter
  split at hsending
  · exact hf r hsending
  · next hnot => exact hnot (isSendingAs_iff.2 ⟨id_of_find? hr, hsending⟩)

/-- No row that a mark names is being sent after it. -/
theorem not_sends_after_mark (t : Table) (h : id ∈ request.targets) : ¬(t.after request).sends id := by
  cases request with
  | markPublished ids now =>
    change ¬(t.markPublished now ids).2.sends id
    rw [sends_iff, find?_markPublished]
    rintro ⟨after, hafter, hsending⟩
    obtain ⟨r, -, rfl⟩ := Option.map_eq_some_iff.1 hafter
    split at hsending
    · cases hsending
    · next hnot => exact hnot ⟨h, hsending⟩
  | markFailed other cause delay now =>
    rw [List.mem_singleton.1 h]
    exact t.not_sends_settle other (·.failed cause delay now) (·.id_failed cause delay now) fun _ => nofun
  | markDead other cause now =>
    rw [List.mem_singleton.1 h]
    exact t.not_sends_settle other (·.deadLettered cause now) (·.id_deadLettered cause now) fun _ => nofun
  | save | claim | counts => cases h

/-- A mark takes effect on a row exactly if it names the row and the row is being sent. -/
theorem marks_iff_sends : t.Marks request id ↔ id ∈ request.targets ∧ t.sends id := by
  constructor
  · intro h
    obtain ⟨r, -, hr, hsending, -⟩ := h.settles
    refine ⟨?_, sends_iff.2 ⟨r, hr, hsending⟩⟩
    by_contra hnot
    exact h.2 (find?_after_mark_of_notMem h.1 hnot)
  · rintro ⟨hid, hsends⟩
    refine ⟨Request.isMark_of_mem_targets hid, fun hsame => t.not_sends_after_mark hid ?_⟩
    rw [sends, hsame]
    exact hsends

/-- A mark that takes effect on a row decides its status. -/
theorem Marks.status (h : t.Marks request id) :
    ∃ r, (t.after request).find? id = some r ∧ request.verdict? = some r.status := by
  obtain ⟨hmark, hne⟩ := h
  have hchange := change_after t request id
  generalize t.find? id = found at hchange hne
  generalize (t.after request).find? id = left at hchange hne ⊢
  cases hchange with
  | kept => exact absurd rfl hne
  | saved | claimed => cases hmark
  | published | failed | deadLettered => exact ⟨_, rfl, rfl⟩

/-! ### Marks between claims -/

/-- Only a claim makes a row one that is being sent. -/
theorem not_sends_after (h : ¬t.sends id) (hhands : ¬t.Hands request id) : ¬(t.after request).sends id := by
  cases hr : t.find? id with
  | some r =>
    have hmarks : ¬t.Marks request id := fun hmarks => h (marks_iff_sends.1 hmarks).2
    rwa [sends, find?_after_of_quiet hr hhands hmarks, ← hr]
  | none =>
    have hchange := change_after t request id
    rw [sends]
    generalize (t.after request).find? id = left at hchange ⊢
    rw [hr] at hchange
    cases hchange with
    | kept => exact Bool.false_ne_true
    | saved => exact Bool.false_ne_true

/-- A row that is not being sent is not marked with effect before it is claimed. -/
theorem marksOn_of_not_sends {requests : List Request} (h : ¬t.sends id) (hunclaimed : Unclaimed id t requests) :
    marksOn id t requests = [] ∧ ¬(t.run requests).sends id := by
  induction requests generalizing t with
  | nil => exact ⟨rfl, h⟩
  | cons request rest ih =>
    rw [marksOn, if_neg fun hmarks => h (marks_iff_sends.1 hmarks).2]
    exact ih (not_sends_after h hunclaimed.1) hunclaimed.2

/-- A row that is being sent and is not claimed again is sent until a mark takes effect on it. -/
theorem sends_run_iff {requests : List Request} (h : t.sends id) (hunclaimed : Unclaimed id t requests) :
    (t.run requests).sends id ↔ marksOn id t requests = [] := by
  induction requests generalizing t with
  | nil => exact ⟨fun _ => rfl, fun _ => h⟩
  | cons request rest ih =>
    rw [run_cons, marksOn]
    split
    · next hmarks =>
      have hover := t.not_sends_after_mark (marks_iff_sends.1 hmarks).1
      exact ⟨fun hsends => absurd hsends (marksOn_of_not_sends hover hunclaimed.2).2,
        fun hnil => absurd hnil (List.cons_ne_nil _ _)⟩
    · next hmarks =>
      obtain ⟨r, hr, hsending⟩ := sends_iff.1 h
      have hstill : (t.after request).sends id :=
        sends_iff.2 ⟨r, find?_after_of_quiet hr hunclaimed.1 hmarks, hsending⟩
      exact ih hstill hunclaimed.2

/-! ### Counting -/

theorem fst_markPublished_eq {ids : List Int} (now : Instant) (hids : ids.Nodup) :
    (t.markPublished now ids).1 = ids.countP t.sends := by
  induction ids generalizing t with
  | nil => rfl
  | cons first rest ih =>
    obtain ⟨hfirst, hrest⟩ := List.nodup_cons.1 hids
    have hothers : rest.countP (t.settle first (·.published now) (·.id_published now)).2.sends =
        rest.countP t.sends := by
      refine List.countP_congr fun id hid => ?_
      rw [sends, find?_settle_of_ne (ne_of_mem_of_not_mem hid hfirst)]
      rfl
    rw [markPublished, List.countP_cons]
    dsimp only
    rw [ih hrest, hothers, fst_settle_eq]
    cases t.sends first <;> rfl

theorem fst_markPublished_le (now : Instant) (ids : List Int) : (t.markPublished now ids).1 ≤ ids.length := by
  induction ids generalizing t with
  | nil => exact Nat.le_refl 0
  | cons first rest ih =>
    rw [markPublished, List.length_cons]
    dsimp only
    exact Nat.add_le_add ih (Bool.toNat_le _)

theorem countP_eq_add {p q moved : Row → Bool} {rows : List Row}
    (h : ∀ r ∈ rows, (p r).toNat = (q r).toNat + (moved r).toNat) :
    rows.countP p = rows.countP q + rows.countP moved := by
  induction rows with
  | nil => rfl
  | cons r rest ih =>
    obtain ⟨hr, hrest⟩ := List.forall_mem_cons.1 h
    have hone (f : Row → Bool) : (if f r then 1 else 0) = (f r).toNat := by cases f r <;> rfl
    rw [List.countP_cons, List.countP_cons, List.countP_cons, ih hrest, hone, hone, hone, hr]
    omega

/-- At most one row is being sent under an id. -/
theorem countP_isSendingAs (t : Table) (id : Int) :
    t.rows.countP (·.isSendingAs id) = (t.rows.any (·.isSendingAs id)).toNat := by
  have hids := t.nodup_ids
  generalize t.rows = rows at hids
  induction rows with
  | nil => rfl
  | cons r rest ih =>
    obtain ⟨hr, hrest⟩ := List.nodup_cons.1 hids
    rw [List.countP_cons, List.any_cons, ih hrest]
    by_cases hsending : r.isSendingAs id
    · have hnone : rest.any (·.isSendingAs id) = false := by
        refine List.any_eq_false.2 fun other hother hsame => hr ?_
        rw [(isSendingAs_iff.1 hsending).1, ← (isSendingAs_iff.1 hsame).1]
        exact List.mem_map_of_mem hother
      rw [if_pos hsending, hsending, hnone]
      rfl
    · rw [if_neg hsending, eq_false_of_ne_true hsending, Bool.false_or, Nat.add_zero]

/-- A mark that takes effect adds one to the count of its status; those of rows that are over lose none. -/
theorem count_settle {s : Status} (hs : s.isTerminal) {f : Row → Row} {verdict : Status} (keeps : ∀ r, (f r).id = r.id)
    (hf : ∀ r, (f r).status = verdict) (t : Table) (id : Int) :
    (t.settle id f keeps).2.count s = t.count s + if verdict = s then (t.settle id f keeps).1.toNat else 0 := by
  have hcount : (t.settle id f keeps).2.count s =
      t.rows.countP fun r => (if r.isSendingAs id then f r else r).status == s := List.countP_map
  have hadd : (t.settle id f keeps).2.count s =
      t.count s + t.rows.countP fun r => r.isSendingAs id && decide (verdict = s) := by
    rw [hcount]
    refine countP_eq_add fun r _ => ?_
    by_cases hsending : r.isSendingAs id
    · have hnot : (r.status == s) = false := by
        rw [(isSendingAs_iff.1 hsending).2]
        cases s <;> first | rfl | cases hs
      rw [if_pos hsending, hf, hsending, hnot, Bool.true_and, Bool.toNat_false, Nat.zero_add]
      rfl
    · rw [if_neg hsending, eq_false_of_ne_true hsending]
      rfl
  rw [hadd]
  split
  · next hverdict =>
    simp only [hverdict, decide_true, Bool.and_true, countP_isSendingAs]
    rfl
  · next hverdict => simp only [hverdict, decide_false, Bool.and_false, List.countP_false, Function.const_apply]

theorem count_markPublished {s : Status} (hs : s.isTerminal) (t : Table) (now : Instant) (ids : List Int) :
    (t.markPublished now ids).2.count s = t.count s + if .published = s then (t.markPublished now ids).1 else 0 := by
  induction ids generalizing t with
  | nil => simp only [markPublished, ite_self, Nat.add_zero]
  | cons id rest ih =>
    rw [markPublished]
    dsimp only
    rw [ih, count_settle hs (·.id_published now) (fun _ => rfl)]
    split <;> omega

/-- A mark of different rows is answered with the number of those that are being sent. -/
theorem tally_answer (hmark : request.isMark) (h : request.targets.Nodup) (t : Table) :
    ∃ a, (t.answer request).1 = .ok a ∧ request.tally a = request.targets.countP t.sends := by
  have hone (id : Int) : (t.sends id).toNat = [id].countP t.sends := by
    rw [List.countP_singleton]
    cases t.sends id <;> rfl
  cases request with
  | markPublished ids now => exact ⟨_, rfl, fst_markPublished_eq now h⟩
  | markFailed id cause delay now =>
    exact ⟨_, rfl, (congrArg Bool.toNat (t.fst_settle_eq id _ (·.id_failed cause delay now))).trans (hone id)⟩
  | markDead id cause now =>
    exact ⟨_, rfl, (congrArg Bool.toNat (t.fst_settle_eq id _ (·.id_deadLettered cause now))).trans (hone id)⟩
  | save | claim | counts => cases hmark

end Table

end Outbox
