import Outbox.Proofs.Store.Lifecycle

/-! The attempts of a row. A claim that returns it makes them one more, and nothing else changes them: successive claims
return the row with the attempts one, two, three and so on. -/

namespace Outbox.Table

variable {t : Table} {r : Row} {id : Int} {request : Request}

/-- The rows that a call returns from a claim. -/
def returned (t : Table) : Request → List Row
  | .claim p limit now stuck =>
    match t.claim p limit now stuck with
    | some (rows, _) => rows
    | none => []
  | .save _ | .markPublished _ _ | .markFailed _ _ _ _ | .markDead _ _ _ | .counts => []

/-- The attempts of the row of an id; none before it is saved. -/
def attempts (t : Table) (id : Int) : Int :=
  match t.find? id with
  | some r => r.attempt
  | none => 0

/-- The attempts with which the claims among calls return the row of an id, in order. -/
def attemptsOn (id : Int) : Table → List Request → List Int
  | _, [] => []
  | t, request :: rest =>
    ((t.returned request).filter fun r => r.id == id).map Row.attempt ++ attemptsOn id (t.after request) rest

theorem hands_iff : t.Hands request id ↔ ∃ r ∈ t.returned request, r.id = id := by
  cases request with
  | claim p limit now stuck =>
    simp only [Hands, returned]
    cases t.claim p limit now stuck with
    | none => simp
    | some answer => simp
  | save | markPublished | markFailed | markDead | counts => simp [Hands, returned]

theorem nodup_returned (t : Table) (request : Request) : ((t.returned request).map Row.id).Nodup := by
  cases request with
  | claim p limit now stuck =>
    rw [returned]
    split
    · next hclaim => exact nodup_claim hclaim
    · exact List.nodup_nil
  | save | markPublished | markFailed | markDead | counts => exact List.nodup_nil

/-- A row is returned with one attempt more than it had, and then has as many. -/
theorem attempts_of_returned (h : r ∈ t.returned request) :
    r.attempt = t.attempts r.id + 1 ∧ (t.after request).attempts r.id = r.attempt := by
  cases request with
  | claim p limit now stuck =>
    rw [returned] at h
    split at h
    · next rows t' hclaim =>
      obtain ⟨before, hbefore, -, hr, hafter⟩ := find?_after_claim hclaim h
      rw [after_claim hclaim, attempts, attempts, hbefore, hafter]
      refine ⟨?_, rfl⟩
      rw [hr]
      rfl
    · cases h
  | save | markPublished | markFailed | markDead | counts => cases h

/-- A call leaves the attempts of the rows that it does not return. -/
theorem attempts_after_of_not_hands (h : ¬t.Hands request id) : (t.after request).attempts id = t.attempts id := by
  have hchange := change_after t request id
  cases request with
  | claim p limit now stuck =>
    cases hclaim : t.claim p limit now stuck with
    | none => rw [after_claim_none hclaim]
    | some answer =>
      have hfind : answer.2.find? id = t.find? id :=
        find?_after_claim_of_notMem hclaim fun r hr hid => h ⟨answer, hclaim, r, hr, hid⟩
      rw [after_claim hclaim, attempts, attempts, hfind]
  | save | markPublished | markFailed | markDead | counts =>
    rw [attempts, attempts]
    generalize t.find? id = found, (t.after _).find? id = left at hchange ⊢
    cases hchange <;> rfl

theorem attempts_le_after (t : Table) (request : Request) (id : Int) :
    t.attempts id ≤ (t.after request).attempts id := by
  by_cases h : t.Hands request id
  · obtain ⟨r, hr, rfl⟩ := hands_iff.1 h
    obtain ⟨hattempt, hafter⟩ := attempts_of_returned hr
    omega
  · rw [attempts_after_of_not_hands h]

theorem filter_id_eq {rows : List Row} (hids : (rows.map Row.id).Nodup) (hr : r ∈ rows) :
    rows.filter (fun other => other.id == r.id) = [r] := by
  induction rows with
  | nil => cases hr
  | cons first rest ih =>
    obtain ⟨hfirst, hrest⟩ := List.nodup_cons.1 hids
    rw [List.filter_cons]
    rcases List.mem_cons.1 hr with heq | hr
    · rw [← heq, if_pos (beq_self_eq_true r.id), List.filter_eq_nil_iff.2]
      intro other hother hid
      rw [← heq, ← beq_iff_eq.1 hid] at hfirst
      exact hfirst (List.mem_map_of_mem hother)
    · rw [if_neg, ih hrest hr]
      intro hid
      rw [beq_iff_eq.1 hid] at hfirst
      exact hfirst (List.mem_map_of_mem hr)

/-- A call returns the row of an id once at most. -/
theorem filter_returned (t : Table) (request : Request) (id : Int) :
    ((t.returned request).filter fun r => r.id == id).map Row.attempt =
      if t.Hands request id then [t.attempts id + 1] else [] := by
  split
  · next h =>
    obtain ⟨r, hr, rfl⟩ := hands_iff.1 h
    have hsame : (t.returned request).filter (fun other => other.id == r.id) = [r] :=
      filter_id_eq (t.nodup_returned request) hr
    rw [hsame, List.map_singleton, (attempts_of_returned hr).1]
  · next h =>
    rw [List.filter_eq_nil_iff.2, List.map_nil]
    intro r hr hid
    exact h (hands_iff.2 ⟨r, hr, beq_iff_eq.1 hid⟩)

/-- Successive claims of a row count its attempts on, one by one. -/
theorem attemptsOn_eq (id : Int) (t : Table) (requests : List Request) :
    attemptsOn id t requests = (List.range (claimsOn id t requests).length).map fun (k : Nat) => t.attempts id + k + 1 := by
  induction requests generalizing t with
  | nil => rfl
  | cons request rest ih =>
    rw [attemptsOn, filter_returned, ih, length_claimsOn_cons]
    by_cases h : t.Hands request id
    · obtain ⟨r, hr, rfl⟩ := hands_iff.1 h
      obtain ⟨hattempt, hafter⟩ := attempts_of_returned hr
      rw [if_pos h, if_pos h, Nat.add_comm 1, List.range_succ_eq_map, List.map_cons, List.map_map, hafter, hattempt]
      refine congrArg₂ List.cons (by omega) (List.map_congr_left fun k _ => ?_)
      simp only [Function.comp_apply]
      omega
    · rw [if_neg h, if_neg h, attempts_after_of_not_hands h, Nat.zero_add, List.nil_append]

end Outbox.Table
