import Outbox.Json.Value

/-! Entries in the order of their names. They are among those that were sorted, no two of them have one name, and if no
name occurred twice then they are the same. -/

namespace Outbox.Json

variable {α : Type} {entries : List (String × α)}

/-- Each entry has a larger name than the ones before it. -/
def Ascending (entries : List (String × α)) : Prop := entries.Pairwise fun a b => a.1 < b.1

theorem mem_of_mem_dropShadowed {entry : String × α} (h : entry ∈ dropShadowed entries) : entry ∈ entries := by
  induction entries with
  | nil => exact h
  | cons first rest ih =>
    rw [dropShadowed] at h
    split at h
    · exact List.mem_cons_of_mem _ (ih h)
    · rcases List.mem_cons.1 h with rfl | h
      · exact List.mem_cons_self
      · exact List.mem_cons_of_mem _ (ih h)

theorem ascending_dropShadowed (h : entries.Pairwise fun a b => a.1 ≤ b.1) : Ascending (dropShadowed entries) := by
  induction entries with
  | nil => exact .nil
  | cons first rest ih =>
    obtain ⟨hfirst, hrest⟩ := List.pairwise_cons.1 h
    rw [dropShadowed]
    split
    · exact ih hrest
    · next hkept =>
      refine List.pairwise_cons.2 ⟨fun entry hentry => ?_, ih hrest⟩
      obtain ⟨next, later, rfl⟩ := List.exists_cons_of_ne_nil (List.ne_nil_of_mem (mem_of_mem_dropShadowed hentry))
      have hne : next.1 ≠ first.1 := fun heq => hkept (beq_iff_eq.2 heq)
      have hlt : first.1 < next.1 := by
        refine String.not_le.1 fun hle => hne (String.le_antisymm hle (hfirst next List.mem_cons_self))
      have hle : next.1 ≤ entry.1 := by
        rcases List.mem_cons.1 (mem_of_mem_dropShadowed hentry) with rfl | hlater
        · exact String.le_refl _
        · exact (List.pairwise_cons.1 hrest).1 entry hlater
      exact String.not_le.1 fun hge => absurd hlt (String.not_lt.2 (String.le_trans hle hge))

theorem dropShadowed_eq_self (h : (entries.map Prod.fst).Nodup) : dropShadowed entries = entries := by
  induction entries with
  | nil => rfl
  | cons first rest ih =>
    obtain ⟨hfirst, hrest⟩ := List.nodup_cons.1 h
    rw [dropShadowed, if_neg ?_, ih hrest]
    cases rest with
    | nil => exact Bool.false_ne_true
    | cons next rest => exact fun heq => hfirst (List.mem_cons.2 (.inl (beq_iff_eq.1 heq).symm))

/-! ### Sorted entries -/

theorem mem_of_mem_sortEntries {entry : String × α} (h : entry ∈ sortEntries entries) : entry ∈ entries :=
  (List.mergeSort_perm _ _).mem_iff.1 (mem_of_mem_dropShadowed h)

theorem ascending_sortEntries (entries : List (String × α)) : Ascending (sortEntries entries) := by
  have hle {a b : String × α} : (!decide (b.1 < a.1)) = true ↔ a.1 ≤ b.1 := by
    rw [Bool.not_eq_true', decide_eq_false_iff_not]
    exact String.not_lt
  have htrans (a b c : String × α) (hab : !decide (b.1 < a.1)) (hbc : !decide (c.1 < b.1)) : !decide (c.1 < a.1) :=
    hle.2 (String.le_trans (hle.1 hab) (hle.1 hbc))
  have htotal (a b : String × α) : !decide (b.1 < a.1) || !decide (a.1 < b.1) := by
    rw [Bool.or_eq_true, hle, hle]
    exact String.le_total _ _
  exact ascending_dropShadowed ((List.pairwise_mergeSort htrans htotal entries).imp hle.1)

theorem sortEntries_perm (h : (entries.map Prod.fst).Nodup) : (sortEntries entries).Perm entries := by
  have hperm := List.mergeSort_perm entries fun a b => !decide (b.1 < a.1)
  rw [sortEntries, dropShadowed_eq_self ((hperm.map Prod.fst).nodup_iff.2 h)]
  exact hperm

theorem Ascending.nodup (h : Ascending entries) : (entries.map Prod.fst).Nodup := by
  refine List.pairwise_map.2 (h.imp ?_)
  intro a b hlt heq
  rw [heq] at hlt
  exact String.lt_irrefl _ hlt

/-- Entries are in the order of their names in one way only. -/
theorem Ascending.eq_sortEntries {sorted : List (String × α)} (h : Ascending sorted) (hperm : sorted.Perm entries) :
    sortEntries entries = sorted := by
  have hnodup := (hperm.map Prod.fst).nodup_iff.1 h.nodup
  refine ((sortEntries_perm hnodup).trans hperm.symm).eq_of_pairwise (fun a b _ _ hab hba => ?_)
    (ascending_sortEntries entries) h
  exact absurd (String.lt_trans hab hba) (String.lt_irrefl _)

theorem Ascending.sortEntries_eq_self (h : Ascending entries) : sortEntries entries = entries :=
  h.eq_sortEntries (.refl _)

theorem sortEntries_pair {a b : String × α} (h : a.1 < b.1) : sortEntries [b, a] = [a, b] := by
  have hsorted : Ascending [a, b] := List.pairwise_pair.2 h
  exact hsorted.eq_sortEntries (.swap b a [])

end Outbox.Json
