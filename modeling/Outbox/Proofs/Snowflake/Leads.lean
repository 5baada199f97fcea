import Mathlib.Data.Int.GCD
import Mathlib.Data.Nat.ModEq
import Mathlib.Tactic.Ring
import Outbox.Proofs.Snowflake.Callers
import Outbox.Proofs.Store.Partitions

/-! The first ids of their milliseconds, which are all that a generator issues at a low rate. They are multiples of a
power of two, moved by the place of the node, so of a total that has divisors in common with that power some partitions
get such ids and the others never do. -/

namespace Outbox

/-! ### Multiples modulo a total -/

/-- Steps on from a number are congruent to it modulo what the total and the step have in common. -/
theorem modEq_of_multiple {index total step base : Nat} (n : Nat) (h : (n * step + base) % total = index) :
    index ≡ base [MOD total.gcd step] := by
  have hmod : (n * step + base) % total ≡ n * step + base [MOD total.gcd step] :=
    (Nat.mod_modEq _ _).of_dvd (Nat.gcd_dvd_left _ _)
  have hstep : n * step ≡ 0 [MOD total.gcd step] := Nat.modEq_zero_iff_dvd.2 ((Nat.gcd_dvd_right _ _).mul_left n)
  rw [← h]
  simpa using hmod.trans (hstep.add_right base)

/-- A number that is congruent to another one in that way is some steps away from it, and no more of them than the
total. -/
theorem exists_multiple {index total step base : Nat} (h : index < total) (hmod : index ≡ base [MOD total.gcd step]) :
    ∃ n, 0 < n ∧ n ≤ total ∧ (n * step + base) % total = index := by
  obtain ⟨m, hm⟩ : (total.gcd step : Int) ∣ index - base := Nat.modEq_iff_dvd.1 hmod.symm
  -- a multiple by the coefficient of the common divisor, brought to the range from 1 to the total
  obtain ⟨u, hu⟩ : ∃ u : Int, u = total.gcdB step * m := ⟨_, rfl⟩
  have hpos : (0 : Int) < total := by omega
  have hnonneg := Int.emod_nonneg (u - 1) hpos.ne'
  have hlt := Int.emod_lt_of_pos (u - 1) hpos
  refine ⟨((u - 1) % total).toNat + 1, Nat.succ_pos _, by omega, ?_⟩
  have hindex : (index : Int) = (total * total.gcdA step + step * total.gcdB step) * m + base := by
    rw [← Nat.gcd_eq_gcd_ab, ← hm, Int.sub_add_cancel]
  have hsum : ((((u - 1) % total).toNat + 1) * step + base : Int) =
      index + total * -(total.gcdA step * m + (u - 1) / total * step) := by
    rw [Int.toNat_of_nonneg hnonneg, Int.emod_def, hindex]
    generalize (u - 1) / (total : Int) = q
    rw [hu]
    ring
  apply Int.ofNat.inj
  change ((((((u - 1) % total).toNat + 1) * step + base : Nat) : Int) % total) = index
  push_cast
  rw [hsum, Int.add_mul_emod_self_left, Int.emod_eq_of_lt (Int.natCast_nonneg _) (by omega)]

namespace Snowflake

open Office (run)

/-! ### Ids with no sequence -/

/-- The id is the first of its millisecond, and a new generator can issue it: to some callers, in some order of their
steps and on some readings of 64 bits. -/
def Config.Leads (c : Config) (id : Int) : Prop :=
  ∃ turns : List (Nat × Nat), (∀ turn ∈ turns, turn.2 < 1 <<< 64) ∧ id ∈ (run c turns).issued.map Issue.id ∧
    (decode id).sequence = 0

variable {c : Config}

/-- One call on a reading of a time after the epoch. -/
def soleCall (c : Config) (time : Nat) : List (Nat × Nat) := [(0, 0), (0, 0), (0, time + c.epoch), (0, 0)]

theorem issued_soleCall {time : Nat} (hpos : 0 < time) (hle : time ≤ lastTimestamp) :
    (run c (soleCall c time)).issued.map Issue.id = [Parts.id ⟨time, c.node, 0⟩] := by
  have hread : c.afterReading {} (time + c.epoch) = .swap {} ⟨time, 0⟩ := by
    have hepoch : ¬time + c.epoch < c.epoch := by omega
    simp only [Config.afterReading, Config.relative, if_neg hepoch, Config.regression?, Nat.add_sub_cancel]
    simp [hpos, Stage.toward, Nat.not_lt.2 hle]
  simp [soleCall, run, Office.turn, Config.step, hread, Stage.id?, Stamp.id]

theorem leads_iff (hnode : c.node ≤ lastNode) (hepoch : c.epoch ≤ 2 ^ 64 - 2 ^ 41) {id : Int} :
    c.Leads id ↔ ∃ time, 0 < time ∧ time ≤ lastTimestamp ∧ id = Parts.id ⟨time, c.node, 0⟩ := by
  constructor
  · rintro ⟨turns, -, hid, hsequence⟩
    obtain ⟨issue, hissue, rfl⟩ := List.mem_map.1 hid
    obtain ⟨s, hfits, hfirst, heq, hdecode⟩ := (Office.run_sound c turns).exists_stamp hnode hissue
    have hzero : s.sequence = 0 := (congrArg Parts.sequence hdecode).symm.trans hsequence
    refine ⟨s.timestamp, ?_, hfits.timestamp_le, ?_⟩
    · rcases hfirst with hlater | ⟨-, hlater⟩
      · exact hlater
      · rw [hzero] at hlater
        exact absurd hlater (Nat.lt_irrefl 0)
    · rw [heq, Stamp.id, hzero]
  · rintro ⟨time, hpos, hle, rfl⟩
    refine ⟨soleCall c time, ?_, ?_, ?_⟩
    · have hreading : time + c.epoch < 1 <<< 64 := by
        rw [lastTimestamp_eq] at hle
        rw [Nat.one_shiftLeft]
        omega
      rw [soleCall]
      simp only [List.forall_mem_cons, List.not_mem_nil, false_imp_iff, implies_true, and_true]
      exact ⟨by decide, by decide, hreading, by decide⟩
    · rw [issued_soleCall hpos hle]
      exact List.mem_singleton_self _
    · rw [decode_id ⟨hle, hnode, Nat.zero_le _⟩]

/-- The first id of a millisecond belongs to a partition by its time and the node, which stand before the sequence. -/
theorem owns_lead_iff (p : Partition) (time node : Nat) :
    p.owns (Parts.id ⟨time, node, 0⟩) ↔ (time * 2 ^ 22 + node * 4096) % p.total = p.index := by
  rw [Partition.owns_iff, Parts.id_eq, Nat.add_zero, ← Int.natCast_emod]
  exact Int.natCast_inj

/-- The partition gets first ids of milliseconds if and only if its index is congruent to the place of the node in ids,
modulo the greatest common divisor of its total and the 2²² ids of a millisecond. So where the total is a power of two
that divides that place for all nodes the partition of index 0 gets all of them, and where it is odd every partition
gets some. -/
theorem Config.leads_owned_iff (c : Config) (hnode : c.node ≤ 1023) (hepoch : c.epoch ≤ 2 ^ 64 - 2 ^ 41) (p : Partition)
    (htotal : p.total < 2 ^ 32) :
    ((∃ id, c.Leads id ∧ p.owns id) ↔ p.index ≡ c.node * 4096 [MOD p.total.gcd (2 ^ 22)]) ∧
    (∀ k, 1 ≤ k → k ≤ 12 → p.total = 2 ^ k → ∀ id, c.Leads id → (p.owns id ↔ p.index = 0)) ∧
    (p.total % 2 = 1 → ∃ id, c.Leads id ∧ p.owns id) := by
  have howned : (∃ id, c.Leads id ∧ p.owns id) ↔ p.index ≡ c.node * 4096 [MOD p.total.gcd (2 ^ 22)] := by
    constructor
    · rintro ⟨id, hid, howns⟩
      obtain ⟨time, -, -, rfl⟩ := (leads_iff hnode hepoch).1 hid
      exact modEq_of_multiple time ((owns_lead_iff ..).1 howns)
    · intro hmod
      obtain ⟨time, hpos, hle, hindex⟩ := exists_multiple p.index_lt hmod
      refine ⟨Parts.id ⟨time, c.node, 0⟩, (leads_iff hnode hepoch).2 ⟨time, hpos, ?_, rfl⟩, (owns_lead_iff ..).2 hindex⟩
      rw [lastTimestamp_eq]
      omega
  refine ⟨howned, fun k hk hle hpower id hid => ?_, fun hodd => howned.2 ?_⟩
  · obtain ⟨time, -, -, rfl⟩ := (leads_iff hnode hepoch).1 hid
    have hnode : p.total ∣ c.node * 4096 := hpower ▸ (Nat.pow_dvd_pow 2 hle).mul_left c.node
    have htime : p.total ∣ time * 2 ^ 22 := hpower ▸ (Nat.pow_dvd_pow 2 (by omega)).mul_left time
    rw [owns_lead_iff, Nat.mod_eq_zero_of_dvd (Nat.dvd_add htime hnode)]
    exact eq_comm
  · have hcoprime : p.total.gcd 2 = 1 := by rw [Nat.gcd_comm, Nat.gcd_rec, hodd, Nat.gcd_one_left]
    rw [Nat.Coprime.pow_right 22 hcoprime]
    exact Nat.modEq_one

/-- Node 7 reaches partition 8 of 12 and not partition 5, all its first ids are in partition 0 of 16, and it reaches the
last one of 3. -/
theorem Config.seventh_leads_owned :
    let c : Config := { node := 7 }
    (∃ id, c.Leads id ∧ Partition.owns { index := 8, total := 12 } id) ∧
    (¬∃ id, c.Leads id ∧ Partition.owns { index := 5, total := 12 } id) ∧
    (∀ id, c.Leads id → Partition.owns { index := 0, total := 16 } id) ∧
    ∃ id, c.Leads id ∧ Partition.owns { index := 2, total := 3 } id := by
  intro c
  have howned (p : Partition) := c.leads_owned_iff (by decide) (by decide) p
  refine ⟨(howned _ (by decide)).1.2 (by decide), fun h => ?_, ?_, (howned _ (by decide)).2.2 (by decide)⟩
  · exact absurd ((howned _ (by decide)).1.1 h) (by decide)
  · exact fun id hid => ((howned _ (by decide)).2.1 4 (by decide) (by decide) (by decide) id hid).2 rfl

end Snowflake

end Outbox
