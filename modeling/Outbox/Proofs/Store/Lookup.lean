import Mathlib.Data.List.Nodup
import Outbox.Store.Table

/-! What a call of a table does to the row of an id. Rows have different ids, so a table is known by the row
that each id leads to. A change of rows that keeps ids is a change of what is found, a claim changes exactly
the rows that it returns, and a mark changes a row that is being sent and no other. One relation, `Change`,
lists all that a call can do to the row of an id. -/

namespace Outbox

/-- The test by which a table chooses the rows that a claim may take. -/
def Row.isDue? (r : Row) (p : Partition) (now : Instant) (stuck : Span) : Option Bool :=
  if p.owns r.id then r.isClaimable? now stuck else some false

/-- The table has no answer exactly if it would have to judge an owner's silence by no date. -/
theorem Row.isDue?_eq_none_iff (r : Row) (p : Partition) (now : Instant) (stuck : Span) :
    r.isDue? p now stuck = none ↔ p.owns r.id ∧ r.status = .sending ∧ now.minus? stuck = none := by
  rw [isDue?, isClaimable?]
  cases p.owns r.id
  · simp
  · cases r.status <;> simp

theorem Table.claimable?_eq_filterM (t : Table) (p : Partition) (now : Instant) (stuck : Span) :
    t.claimable? p now stuck = t.rows.filterM fun r => r.isDue? p now stuck := rfl

namespace Table

variable {t t' : Table} {r : Row} {rows : List Row} {id : Int}

/-! ### Finding rows -/

theorem nodup_ids (t : Table) : (t.rows.map Row.id).Nodup :=
  List.pairwise_map.2 (t.ascending.imp fun h => Int.ne_of_lt h)

theorem eq_of_id_eq {a b : Row} (ha : a ∈ t.rows) (hb : b ∈ t.rows) (h : a.id = b.id) : a = b :=
  List.inj_on_of_nodup_map t.nodup_ids ha hb h

theorem find?_eq_some_iff : t.find? id = some r ↔ r ∈ t.rows ∧ r.id = id := by
  constructor
  · intro h
    exact ⟨List.mem_of_find?_eq_some h, by simpa using List.find?_some h⟩
  · rintro ⟨hr, rfl⟩
    obtain ⟨found, hfound⟩ := Option.isSome_iff_exists.1
      (List.find?_isSome.2 ⟨r, hr, beq_self_eq_true r.id⟩ : (t.find? r.id).isSome)
    have hid : found.id = r.id := by simpa using List.find?_some hfound
    rw [find?, hfound, eq_of_id_eq (List.mem_of_find?_eq_some hfound) hr hid]

theorem find?_of_mem (h : r ∈ t.rows) : t.find? r.id = some r := find?_eq_some_iff.2 ⟨h, rfl⟩

theorem id_of_find? (h : t.find? id = some r) : r.id = id := (find?_eq_some_iff.1 h).2

theorem find?_mapRows (f : Row → Row) (keeps : ∀ r, (f r).id = r.id) :
    (t.mapRows f keeps).find? id = (t.find? id).map f := by
  rw [find?, mapRows, List.find?_map]
  simp only [Function.comp_def, keeps]
  rfl

theorem mapRows_mapRows (f g : Row → Row) (hf : ∀ r, (f r).id = r.id) (hg : ∀ r, (g r).id = r.id) (t : Table) :
    (t.mapRows f hf).mapRows g hg = t.mapRows (fun r => g (f r)) fun r => (hg (f r)).trans (hf r) := by
  apply Table.ext
  · exact List.map_map
  · rfl

/-- Changes that agree on the rows of a table are the same. -/
theorem mapRows_congr {f g : Row → Row} {hf : ∀ r, (f r).id = r.id} {hg : ∀ r, (g r).id = r.id}
    (h : ∀ r ∈ t.rows, f r = g r) : t.mapRows f hf = t.mapRows g hg := by
  apply Table.ext
  · exact List.map_congr_left h
  · rfl

/-! ### Saving and marking -/

theorem find?_save (t : Table) (e : Event) (id : Int) :
    (t.save e).2.find? id = if e.id = id ∧ t.find? id = none then some (.pending e) else t.find? id := by
  rw [save]
  split
  · next h =>
    rw [if_neg]
    rintro ⟨rfl, hnone⟩
    simp [hnone] at h
  · next h =>
    rw [Option.not_isSome_iff_eq_none] at h
    ext r
    rw [find?_eq_some_iff, mem_insertRow]
    split
    · next hnew =>
      obtain ⟨rfl, hnone⟩ := hnew
      constructor
      · rintro ⟨rfl | hr, hid⟩
        · rfl
        · rw [← hid, find?_of_mem hr] at hnone
          cases hnone
      · rintro ⟨⟩
        exact ⟨.inl rfl, rfl⟩
    · next hold =>
      rw [find?_eq_some_iff]
      refine ⟨fun ⟨hr, hid⟩ => ⟨hr.resolve_left ?_, hid⟩, fun ⟨hr, hid⟩ => ⟨.inr hr, hid⟩⟩
      rintro rfl
      exact hold ⟨hid, hid ▸ h⟩

theorem find?_settle (t : Table) (id other : Int) (f : Row → Row) (keeps : ∀ r, (f r).id = r.id) :
    (t.settle other f keeps).2.find? id = (t.find? id).map fun r => if r.isSendingAs other then f r else r := by
  rw [settle, find?_mapRows]

theorem isSendingAs_iff : r.isSendingAs id ↔ r.id = id ∧ r.status = .sending := by
  simp [Row.isSendingAs]

theorem fst_settle (t : Table) (id : Int) (f : Row → Row) (keeps : ∀ r, (f r).id = r.id) :
    (t.settle id f keeps).1 = true ↔ ∃ r, t.find? id = some r ∧ r.status = .sending := by
  simp only [settle, List.any_eq_true, isSendingAs_iff, find?_eq_some_iff, and_assoc]

theorem find?_settle_of_ne {other : Int} (h : other ≠ id) (t : Table) (f : Row → Row) (keeps : ∀ r, (f r).id = r.id) :
    (t.settle id f keeps).2.find? other = t.find? other := by
  rw [find?_settle]
  cases hr : t.find? other with
  | none => rfl
  | some r =>
    rw [Option.map_some, if_neg]
    intro hmark
    exact h ((id_of_find? hr).symm.trans (isSendingAs_iff.1 hmark).1)

/-- A mark of a row that is being sent takes effect on it and on no other. -/
theorem settle_of_sending (hr : t.find? id = some r) (hsending : r.status = .sending) (f : Row → Row)
    (keeps : ∀ r, (f r).id = r.id) :
    (t.settle id f keeps).1 = true ∧ (t.settle id f keeps).2.find? id = some (f r) ∧
      ∀ other, other ≠ id → (t.settle id f keeps).2.find? other = t.find? other := by
  refine ⟨(fst_settle t id f keeps).2 ⟨r, hr, hsending⟩, ?_, fun _ hne => find?_settle_of_ne hne t f keeps⟩
  rw [find?_settle, hr, Option.map_some, if_pos (isSendingAs_iff.2 ⟨id_of_find? hr, hsending⟩)]

/-- A mark as published counts the ids of a list without repetitions if all their rows are being sent. -/
theorem fst_markPublished {ids : List Int} (now : Instant) (hids : ids.Nodup)
    (hsending : ∀ id ∈ ids, ∃ r, t.find? id = some r ∧ r.status = .sending) :
    (t.markPublished now ids).1 = ids.length := by
  induction ids generalizing t with
  | nil => rfl
  | cons first rest ih =>
    obtain ⟨hfirst, hrest⟩ := List.nodup_cons.1 hids
    have hmarked := (fst_settle t first (·.published now) (·.id_published now)).2 (hsending first List.mem_cons_self)
    have hothers := ih (t := (t.settle first (·.published now) (·.id_published now)).2) hrest fun id hid => by
      rw [find?_settle_of_ne (ne_of_mem_of_not_mem hid hfirst)]
      exact hsending id (List.mem_cons_of_mem _ hid)
    rw [markPublished]
    dsimp only
    rw [hothers, hmarked]
    rfl

/-- Of a list of ids, a mark as published takes effect on those whose rows are being sent. -/
theorem find?_markPublished (t : Table) (now : Instant) (ids : List Int) (id : Int) :
    (t.markPublished now ids).2.find? id =
      (t.find? id).map fun r => if id ∈ ids ∧ r.status = .sending then r.published now else r := by
  induction ids generalizing t with
  | nil => simp [markPublished]
  | cons first rest ih =>
    rw [markPublished, ih, find?_settle, Option.map_map]
    refine Option.map_congr fun r hr => ?_
    have hid := id_of_find? hr
    by_cases hsending : r.status = .sending
    · by_cases hfirst : id = first
      · simp [Row.isSendingAs, hsending, hid, hfirst, Row.published]
      · simp [Row.isSendingAs, hsending, hid, hfirst]
    · simp [Row.isSendingAs, hsending]

theorem find?_markPublished_of_notMem {ids : List Int} (h : id ∉ ids) (t : Table) (now : Instant) :
    (t.markPublished now ids).2.find? id = t.find? id := by
  rw [find?_markPublished]
  cases t.find? id with
  | none => rfl
  | some r => rw [Option.map_some, if_neg fun hmark => h hmark.1]

/-! ### Claims -/

theorem filterAuxM_eq {α : Type} (f : α → Option Bool) (l acc : List α) :
    l.filterAuxM f acc =
      if ∀ x ∈ l, (f x).isSome then some ((l.filter fun x => f x == some true).reverse ++ acc) else none := by
  induction l generalizing acc with
  | nil => simp [List.filterAuxM]
  | cons x rest ih =>
    rw [List.filterAuxM]
    cases hx : f x with
    | none => simp [hx]
    | some b => cases b <;> simp [ih, hx]

/-- A filter whose test may have no answer keeps what passes it, if it has an answer everywhere. -/
theorem filterM_eq_some_iff {α : Type} {f : α → Option Bool} {l kept : List α} :
    l.filterM f = some kept ↔ (∀ x ∈ l, (f x).isSome) ∧ kept = l.filter fun x => f x == some true := by
  rw [List.filterM, filterAuxM_eq]
  split
  · next h =>
    refine ⟨fun hkept => ⟨h, ?_⟩, fun hkept => ?_⟩
    · simpa using Eq.symm hkept
    · simp [hkept.2]
  · next h => exact ⟨nofun, fun hkept => absurd hkept.1 h⟩

theorem mem_claimable? {p : Partition} {now : Instant} {stuck : Span} {candidates : List Row}
    (h : t.claimable? p now stuck = some candidates) :
    r ∈ candidates ↔ r ∈ t.rows ∧ p.owns r.id ∧ r.isClaimable? now stuck = some true := by
  rw [claimable?, filterM_eq_some_iff] at h
  rw [h.2, List.mem_filter]
  by_cases hown : p.owns r.id <;> simp [hown]

theorem mem_of_mem_choose {candidates : List Row} {limit : Nat} (h : r ∈ choose candidates limit) :
    r ∈ candidates :=
  List.mem_mergeSort.1 (List.mem_of_mem_take h)

/-- What a claim does: it chooses rows of the partition that may be claimed, returns them as claimed and
changes no other row. -/
theorem claim_eq_some {p : Partition} {limit : Nat} {now : Instant} {stuck : Span}
    (h : t.claim p limit now stuck = some (rows, t')) :
    ∃ chosen : List Row, rows = chosen.map (·.claimed t.token now) ∧ (chosen.map Row.id).Nodup ∧
      (∀ r ∈ chosen, r ∈ t.rows ∧ p.owns r.id ∧ r.isClaimable? now stuck = some true) ∧
      ∀ id, t'.find? id = (t.find? id).map fun r => if r ∈ chosen then r.claimed t.token now else r := by
  rw [claim] at h
  split at h
  · cases h
    exact ⟨[], rfl, by simp, by simp, by simp⟩
  · obtain ⟨candidates, hcandidates, hrows⟩ := Option.map_eq_some_iff.1 h
    simp only [Prod.mk.injEq] at hrows
    obtain ⟨rfl, rfl⟩ := hrows
    have hmem : ∀ r ∈ choose candidates limit, r ∈ t.rows ∧ p.owns r.id ∧ r.isClaimable? now stuck = some true :=
      fun r hr => (mem_claimable? hcandidates).1 (mem_of_mem_choose hr)
    refine ⟨choose candidates limit, rfl, ?_, hmem, fun id => ?_⟩
    · rw [claimable?, filterM_eq_some_iff] at hcandidates
      rw [hcandidates.2]
      refine List.Nodup.sublist ((List.take_sublist _ _).map _) ?_
      rw [((List.mergeSort_perm _ _).map Row.id).nodup_iff]
      exact t.nodup_ids.sublist (List.filter_sublist.map _)
    · rw [find?_mapRows]
      refine Option.map_congr fun r hr => ?_
      have hmine := (find?_eq_some_iff.1 hr).1
      have hany : (choose candidates limit).any (·.id == r.id) = decide (r ∈ choose candidates limit) := by
        rw [Bool.eq_iff_iff, List.any_eq_true, decide_eq_true_iff]
        refine ⟨fun ⟨a, ha, hid⟩ => ?_, fun h => ⟨r, h, beq_self_eq_true r.id⟩⟩
        rwa [← eq_of_id_eq (hmem a ha).1 hmine (beq_iff_eq.1 hid)]
      simp only [hany, decide_eq_true_eq]

/-- A claim has an answer if it can be told of each row whether it may be claimed. -/
theorem claim_isSome_of_rows {now : Instant} {stuck : Span} (h : ∀ r ∈ t.rows, (r.isClaimable? now stuck).isSome)
    (p : Partition) (limit : Nat) : (t.claim p limit now stuck).isSome := by
  rw [claim]
  split
  · rfl
  · rw [Option.isSome_map, claimable?, List.filterM, filterAuxM_eq, if_pos]
    · rfl
    · intro r hr
      split
      · exact h r hr
      · rfl

/-- A claim has an answer if its time less its threshold is a date. -/
theorem claim_isSome {now : Instant} {stuck : Span} (h : (now.minus? stuck).isSome) (t : Table) (p : Partition)
    (limit : Nat) : (t.claim p limit now stuck).isSome := by
  refine claim_isSome_of_rows (fun r _ => ?_) p limit
  rw [Row.isClaimable?]
  cases r.status <;> simp [h]

/-- A claim has an answer, whatever its time, if no row is being sent. -/
theorem claim_isSome_of_rests {now : Instant} {stuck : Span} (h : ∀ r ∈ t.rows, r.status ≠ .sending) (p : Partition)
    (limit : Nat) : (t.claim p limit now stuck).isSome := by
  refine claim_isSome_of_rows (fun r hr => ?_) p limit
  have hrests := h r hr
  rw [Row.isClaimable?]
  cases hstatus : r.status with
  | sending => exact absurd hstatus hrests
  | pending | failed | published | deadLettered => rfl

/-- The rows that a claim returns have different ids. -/
theorem nodup_claim {p : Partition} {limit : Nat} {now : Instant} {stuck : Span}
    (h : t.claim p limit now stuck = some (rows, t')) : (rows.map Row.id).Nodup := by
  obtain ⟨chosen, rfl, hchosen, -, -⟩ := claim_eq_some h
  rwa [List.map_map]

theorem length_claim_le {p : Partition} {limit : Nat} {now : Instant} {stuck : Span} {rows : List Row} {t' : Table}
    (h : t.claim p limit now stuck = some (rows, t')) : rows.length ≤ limit := by
  rw [claim] at h
  split at h
  · cases h
    exact Nat.zero_le limit
  · obtain ⟨candidates, -, hrows⟩ := Option.map_eq_some_iff.1 h
    cases hrows
    rw [List.length_map, choose, List.length_take]
    exact Nat.min_le_left _ _

/-- A claim with room for all rows returns each that it may. -/
theorem exists_claimed {p : Partition} {limit : Nat} {now : Instant} {stuck : Span} (hr : t.find? id = some r)
    (hown : p.owns id) (hdue : r.isClaimable? now stuck = some true) (hdate : (now.minus? stuck).isSome)
    (hroom : t.size ≤ limit) : ∃ answer ∈ t.claim p limit now stuck, r.claimed t.token now ∈ answer.1 := by
  obtain ⟨hmem, rfl⟩ := find?_eq_some_iff.1 hr
  have hlimit : limit ≠ 0 := by
    have := List.length_pos_of_mem hmem
    rw [size] at hroom
    omega
  obtain ⟨answer, hanswer⟩ := Option.isSome_iff_exists.1 (t.claim_isSome hdate p limit)
  refine ⟨answer, hanswer, ?_⟩
  rw [claim, if_neg hlimit] at hanswer
  obtain ⟨candidates, hcandidates, rfl⟩ := Option.map_eq_some_iff.1 hanswer
  refine List.mem_map_of_mem ?_
  have hcandidate := (mem_claimable? hcandidates).2 ⟨hmem, hown, hdue⟩
  have hlength : (candidates.mergeSort Row.precedes).length ≤ limit := by
    rw [List.length_mergeSort]
    rw [claimable?, filterM_eq_some_iff] at hcandidates
    rw [hcandidates.2]
    exact Nat.le_trans (List.length_filter_le _ _) hroom
  rw [choose, List.take_of_length_le hlength]
  exact List.mem_mergeSort.2 hcandidate

/-! ### Calls -/

/-- What a call can do to the row of an id: what the call finds there, and what it leaves. -/
inductive Change (token : Token) (id : Int) : Request → Option Row → Option Row → Prop
  | kept (request : Request) (found : Option Row) : Change token id request found found
  | saved (e : Event) (hid : e.id = id) : Change token id (.save e) none (some (.pending e))
  | claimed {p : Partition} {limit : Nat} {now : Instant} {stuck : Span} (r : Row) (hown : p.owns id)
      (hdue : r.isClaimable? now stuck = some true) :
      Change token id (.claim p limit now stuck) (some r) (some (r.claimed token now))
  | published {ids : List Int} {now : Instant} (r : Row) (hid : id ∈ ids) (hsending : r.status = .sending) :
      Change token id (.markPublished ids now) (some r) (some (r.published now))
  | failed {cause : String} {delay : Span} {now : Instant} (r : Row) (hsending : r.status = .sending) :
      Change token id (.markFailed id cause delay now) (some r) (some (r.failed cause delay now))
  | deadLettered {cause : String} {now : Instant} (r : Row) (hsending : r.status = .sending) :
      Change token id (.markDead id cause now) (some r) (some (r.deadLettered cause now))

/-- No call changes the event of a row. -/
theorem Change.event_eq {token : Token} {request : Request} {found : Option Row}
    (h : Change token id request (some r) found) : ∃ r', found = some r' ∧ r'.event = r.event := by
  cases h with
  | kept => exact ⟨r, rfl, rfl⟩
  | claimed | published | failed | deadLettered => exact ⟨_, rfl, rfl⟩

/-- The table after a call. -/
def after (t : Table) (request : Request) : Table := (t.answer request).2

theorem answer_claim {p : Partition} {limit : Nat} {now : Instant} {stuck : Span}
    (h : t.claim p limit now stuck = some (rows, t')) : t.answer (.claim p limit now stuck) = (.ok rows, t') := by
  rw [answer, h]

theorem after_claim {p : Partition} {limit : Nat} {now : Instant} {stuck : Span}
    (h : t.claim p limit now stuck = some (rows, t')) : t.after (.claim p limit now stuck) = t' := by
  rw [after, answer_claim h]

theorem answer_claim_none {p : Partition} {limit : Nat} {now : Instant} {stuck : Span}
    (h : t.claim p limit now stuck = none) :
    t.answer (.claim p limit now stuck) = (.error (.crash Row.dateOverflow), t) := by
  rw [answer, h]

theorem after_claim_none {p : Partition} {limit : Nat} {now : Instant} {stuck : Span}
    (h : t.claim p limit now stuck = none) : t.after (.claim p limit now stuck) = t := by
  rw [after, answer_claim_none h]

/-- All that a call does to the row of an id. -/
theorem change_after (t : Table) (request : Request) (id : Int) :
    Change t.token id request (t.find? id) ((t.after request).find? id) := by
  cases request with
  | save e =>
    change Change t.token id (.save e) (t.find? id) ((t.save e).2.find? id)
    rw [find?_save]
    split
    · next h =>
      rw [h.2]
      exact .saved e h.1
    · exact .kept _ _
  | claim p limit now stuck =>
    cases hclaim : t.claim p limit now stuck with
    | none =>
      rw [after_claim_none hclaim]
      exact .kept _ _
    | some answer =>
      obtain ⟨rows, t'⟩ := answer
      obtain ⟨chosen, -, -, hchosen, hfind⟩ := claim_eq_some hclaim
      rw [after_claim hclaim, hfind]
      cases hr : t.find? id with
      | none => exact .kept _ _
      | some r =>
        rw [Option.map_some]
        split
        · next hmem =>
          obtain ⟨-, hown, hdue⟩ := hchosen r hmem
          exact .claimed r (id_of_find? hr ▸ hown) hdue
        · exact .kept _ _
  | markPublished ids now =>
    change Change t.token id (.markPublished ids now) (t.find? id) ((t.markPublished now ids).2.find? id)
    rw [find?_markPublished]
    cases t.find? id with
    | none => exact .kept _ _
    | some r =>
      rw [Option.map_some]
      split
      · next h => exact .published r h.1 h.2
      · exact .kept _ _
  | markFailed other cause delay now =>
    change Change t.token id _ (t.find? id) ((t.markFailed other cause delay now).2.find? id)
    rw [markFailed, find?_settle]
    cases hr : t.find? id with
    | none => exact .kept _ _
    | some r =>
      rw [Option.map_some]
      split
      · next h =>
        obtain ⟨hid, hsending⟩ := isSendingAs_iff.1 h
        rw [← hid, id_of_find? hr]
        exact .failed r hsending
      · exact .kept _ _
  | markDead other cause now =>
    change Change t.token id _ (t.find? id) ((t.markDead other cause now).2.find? id)
    rw [markDead, find?_settle]
    cases hr : t.find? id with
    | none => exact .kept _ _
    | some r =>
      rw [Option.map_some]
      split
      · next h =>
        obtain ⟨hid, hsending⟩ := isSendingAs_iff.1 h
        rw [← hid, id_of_find? hr]
        exact .deadLettered r hsending
      · exact .kept _ _
  | counts => exact .kept _ _

/-- A row that a claim returns stands in the table after it, as the claim left it. -/
theorem find?_after_claim {p : Partition} {limit : Nat} {now : Instant} {stuck : Span}
    (h : t.claim p limit now stuck = some (rows, t')) (hr : r ∈ rows) :
    ∃ before, t.find? r.id = some before ∧ before.isClaimable? now stuck = some true ∧
      r = before.claimed t.token now ∧ t'.find? r.id = some r := by
  obtain ⟨chosen, rfl, -, hchosen, hfind⟩ := claim_eq_some h
  obtain ⟨before, hbefore, rfl⟩ := List.mem_map.1 hr
  obtain ⟨hmem, -, hdue⟩ := hchosen before hbefore
  refine ⟨before, find?_of_mem hmem, hdue, rfl, ?_⟩
  rw [hfind, Row.id_claimed, find?_of_mem hmem, Option.map_some, if_pos hbefore]

/-- A claim changes no row that it does not return. -/
theorem find?_after_claim_of_notMem {p : Partition} {limit : Nat} {now : Instant} {stuck : Span}
    (h : t.claim p limit now stuck = some (rows, t')) (hid : ∀ r ∈ rows, r.id ≠ id) :
    t'.find? id = t.find? id := by
  obtain ⟨chosen, rfl, -, -, hfind⟩ := claim_eq_some h
  rw [hfind]
  cases hr : t.find? id with
  | none => rfl
  | some r =>
    rw [Option.map_some, if_neg]
    intro hmem
    exact hid _ (List.mem_map_of_mem hmem) ((r.id_claimed _ _).trans (id_of_find? hr))

end Table

end Outbox
