import Mathlib.Data.List.SplitLengths
import Mathlib.Algebra.GroupWithZero.Nat
import Outbox.Proofs.Store.Partitions

/-! Claims of one partition at one instant. A row that was just claimed is not claimable at that instant, whatever the
threshold, so a claim takes the front off the queue and leaves the rest of it. Claims one after the other therefore
share the queue out in consecutive segments, as one claim with room for all of them takes it. -/

namespace Outbox

variable {t : Table} {p : Partition} {now : Instant} {stuck : Span} {r : Row}

/-- A row is not claimable at the instant of its claim. -/
theorem Row.not_claimable_claimed (r : Row) (token : Token) (now : Instant) (stuck : Span) :
    (r.claimed token now).isClaimable? now stuck ≠ some true := by
  rw [ne_eq, isClaimable?_sending rfl]
  change ¬now.nanos < _
  omega

namespace Table

/-! ### The queue after a claim -/

theorem claimed_notMem_queue (t : Table) (r : Row) (token : Token) : r.claimed token now ∉ t.queue p now stuck :=
  fun h => r.not_claimable_claimed token now stuck (mem_queue.1 h).2.2

/-- A claim takes the front off the queue. -/
theorem queue_hand (t : Table) (p : Partition) (now : Instant) (stuck : Span) (n : Nat) :
    (t.hand ((t.queue p now stuck).take n) now).queue p now stuck = (t.queue p now stuck).drop n := by
  have hordered := t.pairwise_queue p now stuck
  refine queue_eq (hordered.sublist (List.drop_sublist _ _)) fun r => ?_
  rw [rows_hand, List.mem_map]
  constructor
  · intro hr
    have hfront : r ∉ (t.queue p now stuck).take n := fun hmem =>
      List.disjoint_take_drop (hordered.imp Row.Before.ne) (Nat.le_refl n) hmem hr
    obtain ⟨hmem, hown, hdue⟩ := mem_queue.1 (List.mem_of_mem_drop hr)
    exact ⟨⟨r, hmem, if_neg hfront⟩, hown, hdue⟩
  · rintro ⟨⟨before, hbefore, rfl⟩, hown, hdue⟩
    split at hdue
    · exact absurd hdue (before.not_claimable_claimed t.token now stuck)
    · next hfront =>
      rw [if_neg hfront] at hown ⊢
      have hmem := mem_queue.2 ⟨hbefore, hown, hdue⟩
      rw [← List.take_append_drop n (t.queue p now stuck), List.mem_append] at hmem
      exact hmem.resolve_left hfront

theorem hand_hand {chosen others : List Row} (h : ∀ r : Row, r.claimed t.token now ∉ others) :
    (t.hand chosen now).hand others now = t.hand (chosen ++ others) now := by
  rw [hand, hand, mapRows_mapRows]
  refine mapRows_congr fun r _ => ?_
  by_cases hr : r ∈ chosen <;> simp [hr, h, mapRows]

/-- A claim after another at its instant goes on where that one ended. -/
theorem claim_hand (h : (now.minus? stuck).isSome) (t : Table) (p : Partition) (a b : Nat) :
    (t.hand ((t.queue p now stuck).take a) now).claim p b now stuck =
      some ((((t.queue p now stuck).drop a).take b).map (·.claimed t.token now),
        t.hand ((t.queue p now stuck).take (a + b)) now) := by
  rw [claim_eq_queue b (.inr (judged_of_date h _ p)), queue_hand, token_hand, hand_hand fun r => ?_, ← List.take_add]
  exact fun hmem => t.claimed_notMem_queue r t.token (List.mem_of_mem_drop (List.mem_of_mem_take hmem))

/-! ### Sharing out -/

theorem flatten_splitLengths_eq_take {α : Type} (limits : List Nat) (l : List α) :
    (limits.splitLengths l).flatten = l.take limits.sum := by
  induction limits generalizing l with
  | nil => simp
  | cons n rest ih => rw [List.splitLengths_cons, List.flatten_cons, ih, List.sum_cons, List.take_add]

/-- Claims of one partition share out what claims at their instant have left of its queue. -/
theorem claimEach_hand (h : (now.minus? stuck).isSome) (t : Table) (p : Partition) (n : Nat) (limits : List Nat) :
    (t.hand ((t.queue p now stuck).take n) now).claimEach now stuck (limits.map (p, ·)) =
      some ((limits.splitLengths ((t.queue p now stuck).drop n)).map (·.map (·.claimed t.token now)),
        t.hand ((t.queue p now stuck).take (n + limits.sum)) now) := by
  induction limits generalizing n with
  | nil => simp [claimEach]
  | cons limit rest ih =>
    rw [List.map_cons, claimEach, claim_hand h]
    change (claimEach _ now stuck _).bind _ = _
    rw [ih, List.splitLengths_cons, List.drop_drop, List.sum_cons, ← Nat.add_assoc]
    rfl

/-- Claims of one partition at one instant add up, if the instant less their threshold is a date. Two of them return
together, and in this order, what one with the sum of their limits returns, and leave the same table. Any number of
them return consecutive segments of one strictly ordered list, which holds the rows that may be claimed; no row is in
two of the segments, and together these are what one claim with room for all of them returns. -/
theorem claims_add_up (h : (now.minus? stuck).isSome) (t : Table) (p : Partition) :
    (∀ a b : Nat, ∃ first second between last, t.claim p a now stuck = some (first, between) ∧
      between.claim p b now stuck = some (second, last) ∧
      t.claim p (a + b) now stuck = some (first ++ second, last)) ∧
    ∃ backlog : List Row, backlog.Pairwise Row.Before ∧
      (∀ r, r ∈ backlog ↔ r ∈ t.rows ∧ p.owns r.id ∧ r.isClaimable? now stuck = some true) ∧
      ∀ limits : List Nat, ∃ lists last, t.claimEach now stuck (limits.map (p, ·)) = some (lists, last) ∧
        lists = (limits.splitLengths backlog).map (·.map (·.claimed t.token now)) ∧
        lists.flatten = (backlog.take limits.sum).map (·.claimed t.token now) ∧
        (lists.flatten.map Row.id).Nodup ∧
        t.claim p limits.sum now stuck = some (lists.flatten, last) := by
  have hclaim (limit : Nat) := claim_eq_queue limit (.inr (judged_of_date h t p))
  refine ⟨fun a b => ?_, t.queue p now stuck, t.pairwise_queue p now stuck, fun r => mem_queue, fun limits => ?_⟩
  · refine ⟨_, _, _, _, hclaim a, claim_hand h t p a b, ?_⟩
    rw [hclaim, List.take_add, List.map_append]
  · have hflatten : ((limits.splitLengths (t.queue p now stuck)).map (·.map (·.claimed t.token now))).flatten =
        ((t.queue p now stuck).take limits.sum).map (·.claimed t.token now) := by
      rw [← List.map_flatten, flatten_splitLengths_eq_take]
    have heach := claimEach_hand h t p 0 limits
    rw [List.take_zero, hand_nil, List.drop_zero, Nat.zero_add] at heach
    refine ⟨_, _, heach, rfl, hflatten, ?_, by rw [hflatten, hclaim]⟩
    rw [hflatten]
    exact nodup_claim (hclaim limits.sum)

/-- Two claims, and three of which one has no room, share out the rows of `mixed`, also with no threshold. -/
theorem mixed_shared_out :
    let now : Instant := { nanos := 120000000000 }
    (∃ first second between last, mixed.claim .whole 2 now (.ofSeconds 0) = some (first, between) ∧
      between.claim .whole 1 now (.ofSeconds 0) = some (second, last) ∧
      mixed.claim .whole (2 + 1) now (.ofSeconds 0) = some (first ++ second, last)) ∧
    ∃ lists last, mixed.claimEach now (.ofSeconds 60) [(.whole, 1), (.whole, 0), (.whole, 5)] = some (lists, last) ∧
      (lists.flatten.map Row.id).Nodup ∧ mixed.claim .whole 6 now (.ofSeconds 60) = some (lists.flatten, last) := by
  intro now
  have hminute : (now.minus? (.ofSeconds 60)).isSome := by decide
  have hnothing : (now.minus? (.ofSeconds 0)).isSome := by decide
  obtain ⟨-, backlog, -, -, hshares⟩ := claims_add_up hminute mixed .whole
  obtain ⟨lists, last, heach, -, -, hapart, hone⟩ := hshares [1, 0, 5]
  exact ⟨(claims_add_up hnothing mixed .whole).1 2 1, lists, last, heach, hapart, hone⟩

example :
    (mixed.claimEach { nanos := 120000000000 } (.ofSeconds 60) [(.whole, 2), (.whole, 2)]).map
      (fun answer => answer.1.map (·.map Row.id)) = some [[2, 3], [1]] := by
  cbv

end Table

end Outbox
