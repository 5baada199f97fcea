import Mathlib.Algebra.Group.Nat.Defs
import Outbox.Proofs.Count
import Outbox.Service.Database

/-! What is built from settings that pass their check. All of it can be built, and the seconds of the worst tick are
counted without overflow where they are below the threshold. Only the number of connections is not looked at: it is cut
to 32 bits before two are added. -/

namespace Outbox

theorem Span.timerMillis_ofSeconds (n : Nat) : (Span.ofSeconds n).timerMillis = n * 1000 := by
  change (n * 1000000000 + 999999) / 1000000 = n * 1000
  omega

/-- A partition that is made has the index and the total that it is made of. -/
theorem Partition.of_make {index total : Nat} {p : Partition} (h : make index total = .ok p) :
    p.index = index ∧ p.total = total := by
  rw [make] at h
  split at h
  · cases h
  split at h
  · cases h
    exact ⟨rfl, rfl⟩
  · cases h

namespace Settings

variable {s : Settings}

/-- What the check asks of settings. -/
structure IsValid (s : Settings) : Prop where
  stored : s.inMemory = true ∨ (s.databaseUrl.getD "").isEmpty = false
  partition : ∃ p, s.partition = .ok p
  batchSize : s.batchSize ≠ 0
  chunk : s.chunk ≠ 0
  timeout : s.timeout ≠ 0
  worst_lt : s.worstTickSeconds < s.stuck.toNat
  node_le : s.node.toNat ≤ Snowflake.lastNode
  backoff_le : s.baseBackoff ≤ s.maxBackoff

theorem isValid_of_check (h : s.check = .ok ()) : s.IsValid := by
  simp only [check, bind, Except.bind, throw, throwThe, MonadExceptOf.throw, pure, Except.pure] at h
  repeat' split at h
  all_goals cases h
  next hstored _ p hpartition hbatch hchunk htimeout _ hworst hnode hbackoff =>
    refine ⟨?_, ?_, hbatch, hchunk, htimeout, Nat.lt_of_not_le hworst, Nat.le_of_not_lt hnode, UInt64.not_lt.1 hbackoff⟩
    · cases hmemory : s.inMemory with
      | true => exact .inl rfl
      | false => exact .inr (by simpa [hmemory] using hstored)
    · cases hmade : s.partition with
      | ok p => exact ⟨p, rfl⟩
      | error fault =>
        rw [hmade] at hpartition
        cases hpartition

/-! ### The worst tick -/

/-- The check lets the threshold pass only if it exceeds the worst tick. -/
theorem worstTickSeconds_lt_of_check (h : s.check = .ok ()) : s.timeout ≠ 0 ∧ s.worstTickSeconds < s.stuck.toNat :=
  ⟨(isValid_of_check h).timeout, (isValid_of_check h).worst_lt⟩

/-- The worst tick of settings that pass is not cut off at the largest count. -/
theorem worstTickSeconds_of_check (h : s.check = .ok ()) :
    s.worstTickSeconds =
      (Count.groups s.batchSize.toNat (max s.chunk.toNat 1) + s.batchSize.toNat) * s.timeout.toNat := by
  obtain ⟨htimeout, hlt⟩ := worstTickSeconds_lt_of_check h
  have htop : s.stuck.toNat ≤ Count.top := by
    have := s.stuck.toNat_lt
    rw [Count.top]
    omega
  have hproduct : s.worstTickSeconds < Count.top := by omega
  have hpositive : 0 < s.timeout.toNat := Nat.pos_of_ne_zero fun hzero => htimeout (UInt64.toNat_inj.1 hzero)
  rw [worstTickSeconds, Count.mul, Count.add] at hproduct ⊢
  have hexact := Count.clamp_of_lt hproduct
  rw [hexact] at hproduct ⊢
  rw [Count.clamp_of_lt (Nat.lt_of_le_of_lt (Nat.le_mul_of_pos_right _ hpositive) hproduct)]

/-- The chunks of a batch are counted by a division that is rounded up. -/
theorem worstTickSeconds_eq_of_check (h : s.check = .ok ()) :
    s.worstTickSeconds =
      ((s.batchSize.toNat + s.chunk.toNat - 1) / s.chunk.toNat + s.batchSize.toNat) * s.timeout.toNat := by
  have hchunk : 0 < s.chunk.toNat := Nat.pos_of_ne_zero fun hzero => (isValid_of_check h).chunk (UInt64.toNat_inj.1 hzero)
  rw [worstTickSeconds_of_check h, Nat.max_eq_left hchunk, Count.groups_eq hchunk]

/-! ### Connections -/

/-- The number of connections is two more than what 32 bits keep of the number of messages. -/
theorem poolSize?_eq_some_iff {size : UInt32} : s.poolSize? = some size ↔ size.toNat = s.chunk.toNat % 2 ^ 32 + 2 := by
  have hlt := size.toNat_lt
  rw [poolSize?, Nat.one_shiftLeft]
  split
  · next hfits =>
    rw [Option.some.injEq, ← UInt32.toNat_inj, Nat.toUInt32_eq, UInt32.toNat_ofNat', Nat.mod_eq_of_lt hfits]
    exact eq_comm
  · next hwide => exact iff_of_false (by simp) (by omega)

theorem poolSize?_eq_none_iff : s.poolSize? = none ↔ 2 ^ 32 ≤ s.chunk.toNat % 2 ^ 32 + 2 := by
  rw [poolSize?, Nat.one_shiftLeft]
  split
  · next hfits => exact iff_of_false (by simp) (Nat.not_le.2 hfits)
  · next hwide => exact iff_of_true rfl (Nat.le_of_not_lt hwide)

/-- The number of connections is as it should be exactly if 32 bits hold it. -/
theorem exists_poolSize_iff :
    (∃ size, s.poolSize? = some size ∧ size.toNat = s.chunk.toNat + 2) ↔ s.chunk.toNat + 2 < 2 ^ 32 := by
  constructor
  · rintro ⟨size, -, hsize⟩
    rw [← hsize]
    exact size.toNat_lt
  · intro hlt
    have hsize : (UInt32.ofNat (s.chunk.toNat + 2)).toNat = s.chunk.toNat + 2 := by
      rw [UInt32.toNat_ofNat', Nat.mod_eq_of_lt hlt]
    refine ⟨_, poolSize?_eq_some_iff.2 ?_, hsize⟩
    rw [hsize, Nat.mod_eq_of_lt (by omega)]

/-! ### All of it -/

/-- Settings that pass their check can be built from. The worst tick is what the chunks and the rows of a batch add up
to, and 64 bits hold its seconds; the partition, the relay and the source of ids are made of the values as they are;
the first delay is within the limit of the delays, and attempts have no end exactly if none are set. The number of
connections is two more than the number of messages exactly if 32 bits hold it. Otherwise the number of messages loses
its upper bits, or the sum does not fit and the database is not opened. -/
theorem built_of_check (s : Settings) (h : s.check = .ok ()) :
    let worst := ((s.batchSize.toNat + s.chunk.toNat - 1) / s.chunk.toNat + s.batchSize.toNat) * s.timeout.toNat
    (s.worstTick = .ofSeconds worst ∧ worst < 2 ^ 64) ∧
    (∃ p, s.partition = .ok p ∧ p.index = s.instanceIndex.toNat ∧ p.total = s.instanceCount.toNat ∧
      s.relayConfig = .ok {
        partition := p, batchSize := s.batchSize.toNat, stuck := .ofSeconds s.stuck.toNat
        pause := .ofMillis s.pause.toNat }) ∧
    s.ids.check = .ok s.ids ∧
    s.policy.base.nanos ≤ s.policy.limit.nanos ∧ (s.policy.maxAttempts = none ↔ s.maxAttempts = 0) ∧
    ((∃ size, s.poolSize? = some size ∧ size.toNat = s.chunk.toNat + 2) ↔ s.chunk.toNat + 2 < 2 ^ 32) ∧
    (∀ size, s.poolSize? = some size ↔ size.toNat = s.chunk.toNat % 2 ^ 32 + 2) ∧
    (2 ^ 32 ≤ s.chunk.toNat % 2 ^ 32 + 2 → ∀ url ∈ s.databaseUrl, ∀ session,
      Service.openDatabase s session = (.error (.crash Service.poolOverflow), { session := session })) := by
  intro worst
  have hvalid := isValid_of_check h
  have hworst : s.worstTickSeconds = worst := worstTickSeconds_eq_of_check h
  refine ⟨⟨congrArg Span.ofSeconds hworst, ?_⟩, ?_, ?_, ?_, ?_, exists_poolSize_iff, fun _ => poolSize?_eq_some_iff, ?_⟩
  · rw [← hworst]
    exact Nat.lt_trans hvalid.worst_lt s.stuck.toNat_lt
  · obtain ⟨p, hp⟩ := hvalid.partition
    obtain ⟨hindex, htotal⟩ := Partition.of_make hp
    refine ⟨p, hp, hindex, htotal, ?_⟩
    rw [relayConfig, hp]
    rfl
  · exact if_neg (Nat.not_lt.2 hvalid.node_le)
  · exact Nat.mul_le_mul_right _ (UInt64.le_iff_toNat_le.1 hvalid.backoff_le)
  · rw [policy]
    split <;> simp [*]
  · intro hwide url hurl session
    rw [Service.openDatabase, hurl, poolSize?_eq_none_iff.2 hwide]

/-- Settings of a database for a number of messages, all else as usual. -/
def wide (chunk : UInt64) : Settings := { databaseUrl := some "postgres://localhost/outbox", chunk := chunk }

/-- For seven messages there are nine connections, and for 2³² - 1 messages the database is not opened. -/
theorem wide_built :
    (wide 7).check = .ok () ∧ (wide 7).worstTick = .ofSeconds 575 ∧
    (∃ size, (wide 7).poolSize? = some size ∧ size.toNat = 9) ∧
    (wide 4294967295).check = .ok () ∧ ∀ session, Service.openDatabase (wide 4294967295) session =
      (.error (.crash Service.poolOverflow), { session := session }) := by
  have hcheck : (wide 7).check = .ok () := by rfl
  have hcheck' : (wide 4294967295).check = .ok () := by rfl
  obtain ⟨⟨hworst, -⟩, -, -, -, -, hsize, -⟩ := built_of_check (wide 7) hcheck
  obtain ⟨-, -, -, -, -, -, -, hopen⟩ := built_of_check (wide 4294967295) hcheck'
  exact ⟨hcheck, hworst, hsize.2 (by decide), hcheck', hopen (by decide) _ rfl⟩

/-- The check does not look at the number of connections: for 2³² - 1 messages there is none, and for one more message
there are two connections. -/
theorem wide_overflows :
    (wide 4294967295).check = .ok () ∧ (wide 4294967295).poolSize? = none ∧
    (wide 4294967296).check = .ok () ∧ (wide 4294967296).poolSize? = some 2 ∧
    ¬∀ s : Settings, s.check = .ok () → ∃ size, s.poolSize? = some size ∧ size.toNat = s.chunk.toNat + 2 := by
  have hcheck : (wide 4294967295).check = .ok () := by rfl
  have hnone : (wide 4294967295).poolSize? = none := by decide +kernel
  refine ⟨hcheck, hnone, rfl, by decide +kernel, fun h => ?_⟩
  obtain ⟨size, hsize, -⟩ := h _ hcheck
  rw [hnone] at hsize
  cases hsize

end Settings

end Outbox
