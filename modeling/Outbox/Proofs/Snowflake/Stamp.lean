import Mathlib.Data.List.Nodup
import Outbox.Snowflake.Generator

/-! The order of stamps and of the ids made from them. A stamp that fits its bits packs into one word and, with
a node that fits, into an id whose fields do not overlap. Both keep the lexicographic order, so ids of one node
ascend as their stamps do, and an id is decoded into what it was made of. -/

namespace Outbox.Snowflake

/-! ### Fields -/

theorem lastTimestamp_eq : lastTimestamp = 2199023255551 := rfl

theorem lastNode_eq : lastNode = 1023 := rfl

theorem lastSequence_eq : lastSequence = 4095 := rfl

/-- Every part fits its bits. -/
structure Parts.Fits (p : Parts) : Prop where
  timestamp_le : p.timestamp ≤ lastTimestamp
  node_le : p.node ≤ lastNode
  sequence_le : p.sequence ≤ lastSequence

theorem Parts.id_eq (p : Parts) : p.id = (p.timestamp * 4194304 + p.node * 4096 + p.sequence : ℕ) := by
  simp only [Parts.id, Nat.shiftLeft_eq]
  rfl

/-- The fields of an id do not overlap: adding them is the same as joining their bits. -/
theorem Parts.id_eq_or {p : Parts} (h : p.Fits) :
    p.id = (p.timestamp <<< (nodeBits + sequenceBits) ||| p.node <<< sequenceBits ||| p.sequence : ℕ) := by
  obtain ⟨-, hnode, hsequence⟩ := h
  rw [lastNode_eq] at hnode
  rw [lastSequence_eq] at hsequence
  have hlow : p.node <<< sequenceBits + p.sequence < 2 ^ (nodeBits + sequenceBits) := by
    rw [Nat.shiftLeft_eq]
    change p.node * 4096 + p.sequence < 4194304
    omega
  rw [Parts.id, Nat.or_assoc, Nat.add_assoc, Nat.shiftLeft_add_eq_or_of_lt hlow,
    Nat.shiftLeft_add_eq_or_of_lt (Nat.lt_succ_of_le hsequence : p.sequence < 2 ^ sequenceBits)]

theorem Parts.id_lt {p : Parts} (h : p.Fits) : p.id < 9223372036854775808 := by
  obtain ⟨htimestamp, hnode, hsequence⟩ := h
  rw [lastTimestamp_eq] at htimestamp
  rw [lastNode_eq] at hnode
  rw [lastSequence_eq] at hsequence
  rw [Parts.id_eq]
  omega

theorem Parts.id_nonneg (p : Parts) : 0 ≤ p.id := Int.natCast_nonneg _

/-- An id is decoded into the parts that it was made of. -/
theorem decode_id {p : Parts} (h : p.Fits) : decode p.id = p := by
  have hlt := Parts.id_lt h
  obtain ⟨-, hnode, hsequence⟩ := h
  rw [lastNode_eq] at hnode
  rw [lastSequence_eq] at hsequence
  have hbits : (p.id % 18446744073709551616).toNat = p.timestamp * 4194304 + p.node * 4096 + p.sequence := by
    rw [Int.emod_eq_of_lt p.id_nonneg (by omega), Parts.id_eq, Int.toNat_natCast]
  obtain ⟨timestamp, node, sequence⟩ := p
  simp only [decode, hbits, Nat.shiftRight_eq_div_pow, Parts.mk.injEq]
  change _ / 4194304 = _ ∧ _ / 4096 % 1024 = _ ∧ _ % 4096 = _
  simp only at hnode hsequence ⊢
  omega

namespace Stamp

variable {a b : Stamp} {c : Config}

/-- Time and sequence fit their bits. -/
structure Fits (s : Stamp) : Prop where
  timestamp_le : s.timestamp ≤ lastTimestamp
  sequence_le : s.sequence ≤ lastSequence

/-- The stamp was made before the other. -/
def Before (a b : Stamp) : Prop :=
  a.timestamp < b.timestamp ∨ a.timestamp = b.timestamp ∧ a.sequence < b.sequence

/-- The stamp as the one word that callers share and swap. -/
def word (s : Stamp) : ℕ := s.timestamp <<< sequenceBits ||| s.sequence

theorem word_eq (h : a.Fits) : a.word = a.timestamp * 4096 + a.sequence := by
  rw [word, ← Nat.shiftLeft_add_eq_or_of_lt (Nat.lt_succ_of_le h.sequence_le : a.sequence < 2 ^ sequenceBits),
    Nat.shiftLeft_eq]
  rfl

theorem fits_zero : ({} : Stamp).Fits := ⟨Nat.zero_le _, Nat.zero_le _⟩

theorem fits_parts (h : a.Fits) (hnode : c.node ≤ lastNode) : (⟨a.timestamp, c.node, a.sequence⟩ : Parts).Fits :=
  ⟨h.timestamp_le, hnode, h.sequence_le⟩

/-- Ids of one node ascend as their stamps do. -/
theorem id_lt_id (ha : a.Fits) (h : a.Before b) : a.id c < b.id c := by
  have hsequence := ha.sequence_le
  rw [lastSequence_eq] at hsequence
  simp only [Stamp.id, Parts.id_eq]
  rcases h with h | ⟨h, h'⟩ <;> omega

theorem decode_id (hnode : c.node ≤ lastNode) (h : a.Fits) :
    decode (a.id c) = ⟨a.timestamp, c.node, a.sequence⟩ :=
  Snowflake.decode_id (fits_parts h hnode)

theorem id_lt (hnode : c.node ≤ lastNode) (h : a.Fits) : a.id c < 9223372036854775808 :=
  Parts.id_lt (fits_parts h hnode)

theorem id_pos (h : ({} : Stamp).Before a) : 0 < a.id c := by
  simp only [Stamp.id, Parts.id_eq]
  rcases h with h | ⟨-, h⟩
  · change 0 < a.timestamp at h
    omega
  · change 0 < a.sequence at h
    omega

end Stamp

end Outbox.Snowflake
