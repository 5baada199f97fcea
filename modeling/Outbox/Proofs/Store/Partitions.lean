import Mathlib.Data.List.Perm.Basic
import Outbox.Proofs.Store.Queue

/-! Partitions of one total. Each id has one of them. A claim reads and changes rows of its partition only, so claims
of different partitions can be made in either order, and claims of all partitions that have room for every row come to
the same as one claim of the whole. -/

namespace Outbox

/-! ### Owners -/

namespace Partition

variable {p q : Partition} {id : Int}

theorem owns_iff : p.owns id ↔ id % p.total = p.index := by rw [owns, beq_iff_eq]

theorem owns_whole (id : Int) : whole.owns id = true := by
  rw [owns_iff]
  exact Int.emod_one id

/-- Partitions of one total that share an id are the same. -/
theorem eq_of_owns (htotal : p.total = q.total) (hp : p.owns id) (hq : q.owns id) : p = q := by
  have hindex : (p.index : Int) = q.index := by
    rw [← owns_iff.1 hp, ← owns_iff.1 hq, htotal]
  obtain ⟨index, total, _⟩ := p
  obtain ⟨index', total', _⟩ := q
  obtain rfl : index = index' := Int.ofNat.inj hindex
  obtain rfl : total = total' := htotal
  rfl

theorem exists_owner {total : Nat} (h : 0 < total) (id : Int) : ∃ p : Partition, p.total = total ∧ p.owns id := by
  have hnonneg : 0 ≤ id % total := Int.emod_nonneg id (by omega)
  have hlt : id % total < total := Int.emod_lt_of_pos id (by omega)
  refine ⟨⟨(id % total).toNat, total, by omega⟩, rfl, owns_iff.2 ?_⟩
  exact (Int.toNat_of_nonneg hnonneg).symm

/-- Different partitions of one total have no id in common. -/
theorem not_owns (htotal : p.total = q.total) (hindex : p.index ≠ q.index) (hp : p.owns id) : ¬q.owns id := by
  intro hq
  rw [eq_of_owns htotal hp hq] at hindex
  exact hindex rfl

end Partition

namespace Table

variable {t t' : Table} {p : Partition} {limit : Nat} {now : Instant} {stuck : Span} {rows : List Row} {r : Row}

/-! ### Claims beside other changes -/

/-- A change of rows that a partition does not own leaves those that may be claimed of it. -/
theorem claimable?_mapRows {g : Row → Row} {keeps : ∀ r, (g r).id = r.id} (h : ∀ r, p.owns r.id → g r = r) :
    (t.mapRows g keeps).claimable? p now stuck = t.claimable? p now stuck := by
  let test (r : Row) : Option Bool := if p.owns r.id then r.isClaimable? now stuck else some false
  have htest (r : Row) : test (g r) = test r := by
    by_cases hown : p.owns r.id
    · rw [h r hown]
    · simp [test, keeps, hown]
  -- A row that passes the test is owned, so the change leaves it.
  have hkept : (t.rows.map g).filter (fun r => test r == some true) = t.rows.filter fun r => test r == some true := by
    simp only [List.filter_map, Function.comp_def, htest]
    apply (List.map_congr_left _).trans (List.map_id _)
    intro r hr
    have hdue : test r = some true := by simpa using (List.mem_filter.1 hr).2
    by_cases hown : p.owns r.id
    · exact h r hown
    · simp [test, hown] at hdue
  ext kept : 1
  change (t.rows.map g).filterM test = some kept ↔ t.rows.filterM test = some kept
  rw [filterM_eq_some_iff, filterM_eq_some_iff, hkept]
  simp only [List.forall_mem_map, htest]

/-- A claim takes rows of its partition and leaves the others. -/
theorem exists_mapRows_of_claim (h : t.claim p limit now stuck = some (rows, t')) :
    (∀ r ∈ rows, p.owns r.id) ∧
      ∃ (g : Row → Row) (keeps : ∀ r, (g r).id = r.id), t' = t.mapRows g keeps ∧ ∀ r, ¬p.owns r.id → g r = r := by
  obtain ⟨chosen, hrows, -, hchosen, -⟩ := claim_eq_some h
  refine ⟨fun r hr => ?_, ?_⟩
  · rw [hrows] at hr
    obtain ⟨before, hbefore, rfl⟩ := List.mem_map.1 hr
    exact (hchosen before hbefore).2.1
  · rw [claim] at h
    split at h
    · cases h
      refine ⟨fun r => r, fun _ => rfl, ?_, fun _ _ => rfl⟩
      apply Table.ext
      · exact (List.map_id _).symm
      · rfl
    · obtain ⟨candidates, hcandidates, hanswer⟩ := Option.map_eq_some_iff.1 h
      cases hanswer
      refine ⟨_, _, rfl, fun r hown => ?_⟩
      rw [if_neg]
      intro hany
      obtain ⟨candidate, hmem, hid⟩ := List.any_eq_true.1 hany
      have howned := ((mem_claimable? hcandidates).1 (mem_of_mem_choose hmem)).2.1
      rw [beq_iff_eq.1 hid] at howned
      exact hown howned

/-- A claim answers the same after a change of rows that its partition does not own, and can be made before it. -/
theorem claim_mapRows {g : Row → Row} {keeps : ∀ r, (g r).id = r.id} (h : ∀ r, p.owns r.id → g r = r)
    (hclaim : t.claim p limit now stuck = some (rows, t')) :
    (t.mapRows g keeps).claim p limit now stuck = some (rows, t'.mapRows g keeps) := by
  rw [claim] at hclaim ⊢
  split at hclaim
  · next hzero =>
    cases hclaim
    rw [if_pos hzero]
  · next hlimit =>
    obtain ⟨candidates, hcandidates, hanswer⟩ := Option.map_eq_some_iff.1 hclaim
    cases hanswer
    rw [if_neg hlimit, claimable?_mapRows h, hcandidates, Option.map_some]
    refine congrArg some (Prod.ext rfl ?_)
    dsimp only
    rw [mapRows_mapRows, mapRows_mapRows]
    apply mapRows_congr
    intro r _
    simp only [keeps]
    by_cases hchosen : (choose candidates limit).any (·.id == r.id)
    · obtain ⟨candidate, hmem, hid⟩ := List.any_eq_true.1 hchosen
      have hown := ((mem_claimable? hcandidates).1 (mem_of_mem_choose hmem)).2.1
      rw [beq_iff_eq.1 hid] at hown
      rw [if_pos hchosen, if_pos hchosen, h r hown]
      exact (h (r.claimed t.token now) hown).symm
    · rw [if_neg hchosen, if_neg hchosen]

/-! ### Claims with room for all -/

/-- The rows that may be claimed, of those whose ids are meant. -/
def due (t : Table) (owned : Int → Bool) (now : Instant) (stuck : Span) : List Row :=
  t.rows.filter fun r => owned r.id && r.isClaimable? now stuck == some true

/-- The table with all these rows claimed. -/
def takeDue (t : Table) (owned : Int → Bool) (now : Instant) (stuck : Span) : Table :=
  t.mapRows (fun r => if owned r.id && r.isClaimable? now stuck == some true then r.claimed t.token now else r)
    fun r => by
      split
      · exact r.id_claimed t.token now
      · rfl

theorem mem_queue_iff_due (hr : r ∈ t.rows) :
    r ∈ t.queue p now stuck ↔ p.owns r.id && r.isClaimable? now stuck == some true := by
  simp [mem_queue, hr]

theorem queue_perm_due (t : Table) (p : Partition) (now : Instant) (stuck : Span) :
    (t.queue p now stuck).Perm (t.due p.owns now stuck) := by
  have hsame : t.due p.owns now stuck = t.rows.filter fun r => r.isDue? p now stuck == some true := by
    apply List.filter_congr
    intro r _
    rw [Bool.eq_iff_iff, beq_iff_eq, Row.isDue?_iff, Bool.and_eq_true, beq_iff_eq]
  rw [hsame]
  exact List.mergeSort_perm _ _

/-- A claim with room for all rows takes all that are due. -/
theorem claim_all (h : (now.minus? stuck).isSome) (hroom : t.size ≤ limit) (p : Partition) :
    ∃ rows, t.claim p limit now stuck = some (rows, t.takeDue p.owns now stuck) ∧
      rows.Perm ((t.due p.owns now stuck).map (·.claimed t.token now)) := by
  have hdue := t.queue_perm_due p now stuck
  have hfront : (t.queue p now stuck).take limit = t.queue p now stuck := by
    apply List.take_of_length_le
    rw [hdue.length_eq]
    exact Nat.le_trans (List.length_filter_le _ _) hroom
  have hclaim := claim_eq_queue limit (.inr (judged_of_date h t p))
  have hhand : t.hand (t.queue p now stuck) now = t.takeDue p.owns now stuck :=
    mapRows_congr fun r hr => by simp only [mem_queue_iff_due hr]
  rw [hfront, hhand] at hclaim
  exact ⟨_, hclaim, hdue.map _⟩

/-- Claims of partitions one after the other, each with a limit of its own. -/
def claimEach (t : Table) (now : Instant) (stuck : Span) : List (Partition × Nat) → Option (List (List Row) × Table)
  | [] => some ([], t)
  | (p, limit) :: rest => do
    let (rows, t) ← t.claim p limit now stuck
    let (others, t) ← t.claimEach now stuck rest
    return (rows :: others, t)

/-- Rows that pass one of two tests which no row passes both of. -/
theorem filter_or_perm {α : Type} {f g : α → Bool} (h : ∀ x, f x → ¬g x) (l : List α) :
    (l.filter fun x => f x || g x).Perm (l.filter f ++ l.filter g) := by
  have hsplit := (List.filter_append_perm f (l.filter fun x => f x || g x)).symm
  rw [List.filter_filter, List.filter_filter] at hsplit
  have hfirst (x : α) : (f x && (f x || g x)) = f x := by cases f x <;> rfl
  have hsecond (x : α) : (!f x && (f x || g x)) = g x := by
    by_cases hx : f x
    · simp [hx, h x hx]
    · simp [hx]
  simpa only [hfirst, hsecond] using hsplit

section Rest

variable {owned : Int → Bool}

/-- The rows of others are due after the claim of a partition as they were before. -/
theorem due_takeDue (h : ∀ id, p.owns id → ¬owned id) (t : Table) :
    (t.takeDue p.owns now stuck).due owned now stuck = t.due owned now stuck := by
  have hsame (r : Row) (hown : ¬p.owns r.id) :
      (if p.owns r.id && r.isClaimable? now stuck == some true then r.claimed t.token now else r) = r := by
    simp [hown]
  rw [due, takeDue, mapRows, List.filter_map, due]
  have hfilter : t.rows.filter ((fun r => owned r.id && r.isClaimable? now stuck == some true) ∘ fun r =>
      if p.owns r.id && r.isClaimable? now stuck == some true then r.claimed t.token now else r) =
      t.rows.filter fun r => owned r.id && r.isClaimable? now stuck == some true := by
    apply List.filter_congr
    intro r _
    by_cases hown : p.owns r.id
    · have hnot := h r.id hown
      simp only [Function.comp_apply]
      split <;> simp [hnot]
    · simp only [Function.comp_apply, hsame r hown]
  rw [hfilter]
  apply (List.map_congr_left _).trans (List.map_id _)
  intro r hr
  apply hsame
  intro hown
  have hdue := (List.mem_filter.1 hr).2
  simp [h r.id hown] at hdue

theorem takeDue_takeDue (h : ∀ id, p.owns id → ¬owned id) (t : Table) :
    (t.takeDue p.owns now stuck).takeDue owned now stuck =
      t.takeDue (fun id => p.owns id || owned id) now stuck := by
  rw [takeDue, takeDue, mapRows_mapRows, takeDue]
  apply mapRows_congr
  intro r _
  by_cases hown : p.owns r.id
  · have hnot := h r.id hown
    by_cases hdue : r.isClaimable? now stuck = some true <;> simp [hown, hnot, hdue]
  · by_cases hdue : r.isClaimable? now stuck = some true <;> by_cases hrest : owned r.id <;>
      simp [hown, hdue, hrest, mapRows]

theorem due_or_perm (h : ∀ id, p.owns id → ¬owned id) (t : Table) (now : Instant) (stuck : Span) :
    (t.due (fun id => p.owns id || owned id) now stuck).Perm
      (t.due p.owns now stuck ++ t.due owned now stuck) := by
  have hsplit := filter_or_perm (f := fun r : Row => p.owns r.id && r.isClaimable? now stuck == some true)
    (g := fun r => owned r.id && r.isClaimable? now stuck == some true) (fun r hr hr' => ?_) t.rows
  · simpa only [due, Bool.and_or_distrib_right] using hsplit
  · simp only [Bool.and_eq_true] at hr hr'
    exact h r.id hr.1 hr'.1

end Rest

/-- Claims of different partitions that have room for all take what is due of any of them. -/
theorem claimEach_eq (h : (now.minus? stuck).isSome) {order : List (Partition × Nat)}
    (hapart : order.Pairwise fun c d => ∀ id, c.1.owns id → ¬d.1.owns id) (hroom : ∀ c ∈ order, t.size ≤ c.2) :
    ∃ lists, t.claimEach now stuck order =
        some (lists, t.takeDue (fun id => order.any fun c => c.1.owns id) now stuck) ∧
      lists.flatten.Perm ((t.due (fun id => order.any fun c => c.1.owns id) now stuck).map (·.claimed t.token now)) := by
  induction order generalizing t with
  | nil =>
    refine ⟨[], ?_, by simp [due]⟩
    rw [claimEach]
    congr 2
    apply Table.ext
    · simp [takeDue, mapRows]
    · rfl
  | cons first rest ih =>
    obtain ⟨p, limit⟩ := first
    obtain ⟨hfirst, hrest⟩ := List.pairwise_cons.1 hapart
    obtain ⟨hlimit, hlimits⟩ := List.forall_mem_cons.1 hroom
    have hother (id : Int) (hown : p.owns id) : ¬(rest.any fun c => c.1.owns id) := by
      intro hany
      obtain ⟨c, hc, howns⟩ := List.any_eq_true.1 hany
      exact hfirst c hc id hown howns
    obtain ⟨rows, hclaim, hrows⟩ := claim_all h hlimit p
    have hsize : (t.takeDue p.owns now stuck).size = t.size := List.length_map _
    -- The first claim leaves the rows of the other partitions, so that the rest take what was due before it.
    obtain ⟨lists, hlists, hperm⟩ := ih (t := t.takeDue p.owns now stuck) hrest (by rwa [hsize])
    rw [due_takeDue hother] at hperm
    rw [takeDue_takeDue hother] at hlists
    refine ⟨rows :: lists, ?_, ?_⟩
    · rw [claimEach, hclaim]
      change (claimEach _ now stuck rest).bind _ = _
      rw [hlists]
      rfl
    · simp only [List.any_cons]
      rw [List.flatten_cons]
      have hall := (due_or_perm hother t now stuck).map fun r => r.claimed t.token now
      rw [List.map_append] at hall
      exact (hrows.append hperm).trans hall.symm

/-! ### The partitions of a total -/

/-- The partitions of a total tile the table. Each id is owned by exactly one of them. Claims of two of them come out
the same in either order: the same rows for each, none for both, and the same table at the end. If each is claimed
once, in any order and with room for all rows, then the table is left as one claim of the whole with room for all
leaves it, and the rows returned are together those that this claim returns. -/
theorem partitions_tile (total : Nat) (htotal : 0 < total) (t : Table) :
    (∀ id, ∃! p : Partition, p.total = total ∧ p.owns id) ∧
    (∀ c d : Claim, c.partition.total = total → d.partition.total = total → c.partition.index ≠ d.partition.index →
      (c.now.minus? c.stuck).isSome → (d.now.minus? d.stuck).isSome →
      ∃ rows rows' t₁ t₂ last,
        t.claim c.partition c.limit c.now c.stuck = some (rows, t₁) ∧
        t₁.claim d.partition d.limit d.now d.stuck = some (rows', last) ∧
        t.claim d.partition d.limit d.now d.stuck = some (rows', t₂) ∧
        t₂.claim c.partition c.limit c.now c.stuck = some (rows, last) ∧
        ∀ r ∈ rows, ∀ r' ∈ rows', r.id ≠ r'.id) ∧
    (∀ (order : List (Partition × Nat)) (limit : Nat) (now : Instant) (stuck : Span),
      (∀ c ∈ order, c.1.total = total) → (order.map fun c => c.1.index).Perm (List.range total) →
      (now.minus? stuck).isSome → (∀ c ∈ order, t.size ≤ c.2) → t.size ≤ limit →
      ∃ lists rows last, t.claimEach now stuck order = some (lists, last) ∧
        t.claim .whole limit now stuck = some (rows, last) ∧ lists.flatten.Perm rows) := by
  refine ⟨fun id => ?_, fun c d hc hd hindex hcdate hddate => ?_,
    fun order limit now stuck htotals hindices hdate hrooms hroom => ?_⟩
  · obtain ⟨p, hp, howns⟩ := Partition.exists_owner htotal id
    exact ⟨p, ⟨hp, howns⟩, fun q hq => Partition.eq_of_owns (hq.1.trans hp.symm) hq.2 howns⟩
  · have hapart : ∀ id, c.partition.owns id → ¬d.partition.owns id := fun id =>
      Partition.not_owns (hc.trans hd.symm) hindex
    obtain ⟨⟨rows, t₁⟩, hfirst⟩ := Option.isSome_iff_exists.1 (claim_isSome hcdate t c.partition c.limit)
    obtain ⟨⟨rows', t₂⟩, hsecond⟩ := Option.isSome_iff_exists.1 (claim_isSome hddate t d.partition d.limit)
    obtain ⟨hrows, g, hg, rfl, hgrest⟩ := exists_mapRows_of_claim hfirst
    obtain ⟨hrows', g', hg', rfl, hgrest'⟩ := exists_mapRows_of_claim hsecond
    refine ⟨rows, rows', _, _, (t.mapRows g' hg').mapRows g hg, hfirst, ?_, hsecond, ?_, fun r hr r' hr' hid => ?_⟩
    · exact claim_mapRows (fun r hown => hgrest r fun hown' => hapart r.id hown' hown) hsecond
    · rw [claim_mapRows (fun r hown => hgrest' r (hapart r.id hown)) hfirst]
      congr 2
      rw [mapRows_mapRows, mapRows_mapRows]
      apply mapRows_congr
      -- One of the two changes leaves the row, since not both partitions own it.
      intro r _
      by_cases hown : c.partition.owns r.id
      · rw [hgrest' r (hapart r.id hown), hgrest' (g r) (by rw [hg]; exact hapart r.id hown)]
      · rw [hgrest r hown, hgrest (g' r) (by rwa [hg'])]
    · have hown := hrows r hr
      rw [hid] at hown
      exact hapart r'.id hown (hrows' r' hr')
  · have hapart : order.Pairwise fun c d => ∀ id, c.1.owns id → ¬d.1.owns id := by
      have hnodup : (order.map fun c => c.1.index).Nodup := hindices.nodup_iff.2 List.nodup_range
      have hpairs := List.pairwise_map.1 hnodup
      refine hpairs.imp_of_mem fun {c d} hc hd hne id => ?_
      exact Partition.not_owns ((htotals c hc).trans (htotals d hd).symm) hne
    have hall (id : Int) : (order.any fun c => c.1.owns id) = Partition.whole.owns id := by
      rw [Partition.owns_whole, List.any_eq_true]
      obtain ⟨p, rfl, howns⟩ := Partition.exists_owner htotal id
      have hmem : p.index ∈ order.map fun c => c.1.index :=
        hindices.mem_iff.2 (List.mem_range.2 p.index_lt)
      obtain ⟨c, hc, hindex⟩ := List.mem_map.1 hmem
      refine ⟨c, hc, Partition.owns_iff.2 ?_⟩
      rw [htotals c hc, hindex]
      exact Partition.owns_iff.1 howns
    obtain ⟨lists, hlists, hperm⟩ := claimEach_eq hdate hapart hrooms
    obtain ⟨rows, hclaim, hrows⟩ := claim_all hdate hroom .whole
    simp only [hall] at hlists hperm
    exact ⟨lists, rows, _, hlists, hclaim, hperm.trans hrows.symm⟩

/-- Two rows, one of them with a negative id, are shared out by the two partitions of two. -/
theorem halves_tile :
    let order (id : Int) : Event :=
      { id, aggregateType := "Order", aggregateId := "order", kind := "OrderPlaced", payload := [123, 125]
        createdAt := .epoch }
    let t := run {} [.save (order 2), .save (order (-3))]
    let even : Claim := ⟨⟨0, 2, by decide⟩, 1, .epoch, .ofSeconds 60⟩
    let odd : Claim := ⟨⟨1, 2, by decide⟩, 5, { nanos := 7 }, .ofSeconds 0⟩
    (∃ rows rows' t₁ t₂ last,
      t.claim even.partition even.limit even.now even.stuck = some (rows, t₁) ∧
      t₁.claim odd.partition odd.limit odd.now odd.stuck = some (rows', last) ∧
      t.claim odd.partition odd.limit odd.now odd.stuck = some (rows', t₂) ∧
      t₂.claim even.partition even.limit even.now even.stuck = some (rows, last) ∧
      ∀ r ∈ rows, ∀ r' ∈ rows', r.id ≠ r'.id) ∧
    ∃ lists rows last,
      t.claimEach .epoch (.ofSeconds 60) [(odd.partition, 2), (even.partition, 3)] = some (lists, last) ∧
      t.claim .whole 2 .epoch (.ofSeconds 60) = some (rows, last) ∧ lists.flatten.Perm rows := by
  intro order t even odd
  obtain ⟨-, commute, tile⟩ := partitions_tile 2 (by decide) t
  constructor
  · exact commute even odd rfl rfl (by decide) (by decide) (by decide)
  · exact tile _ 2 .epoch (.ofSeconds 60) (by decide) (by decide) (by decide) (by decide +kernel) (by decide +kernel)

end Table

end Outbox
