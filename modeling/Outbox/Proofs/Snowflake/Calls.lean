import Mathlib.Data.List.Nodup
import Mathlib.Data.Nat.Find
import Outbox.Proofs.Snowflake.Stamp

/-! A caller on its own, on any clock. A call is decided by the first of its readings that leaves it nothing to wait
for: that one says which id is issued or why none is, and a call that is refused leaves the stamp as it was. The time of
a stamp was once shown by the clock, so 64 bits hold the times that a refusal tells. -/

namespace Outbox.Snowflake

/-- The readings of a clock, one after the other. -/
def successive (clock : ℕ → ℕ) : Readings ℕ := fun place => (clock place, place + 1)

/-- The stamp of the next id at a time that is put up with. -/
def Stamp.next (s : Stamp) (time : ℕ) : Stamp :=
  ⟨max s.timestamp time, if s.timestamp < time then 0 else s.sequence + 1⟩

variable {c : Config} {s s' : Stamp} {now : ℕ} {answer : Except Refusal Int}

namespace Config

/-- What a reading decides for a call on a stamp: the answer, and the stamp after it. -/
inductive Verdict (c : Config) (s : Stamp) (now : ℕ) : Except Refusal Int → Stamp → Prop
  | early (hnow : now < c.epoch) : c.Verdict s now (.error (.clockBeforeEpoch now c.epoch)) s
  | wentBack (hepoch : c.epoch ≤ now) (hnow : now + c.tolerance < s.timestamp + c.epoch) :
    c.Verdict s now
      (.error (.clockWentBack (s.timestamp + c.epoch) now (s.timestamp + c.epoch - now) c.tolerance)) s
  | tooLate (hepoch : c.epoch ≤ now) (hnow : lastTimestamp < now - c.epoch) :
    c.Verdict s now (.error (.timestampOverflow (now - c.epoch))) s
  | issued (hepoch : c.epoch ≤ now) (hkept : s.timestamp + c.epoch ≤ now + c.tolerance)
    (hfree : s.timestamp + c.epoch < now ∨ s.sequence < lastSequence) (hfits : now - c.epoch ≤ lastTimestamp) :
    c.Verdict s now (.ok ((s.next (now - c.epoch)).id c)) (s.next (now - c.epoch))

/-- A reading after which a call goes on reading: the sequence is used up, and the clock is not past the last id
yet, though not too far before it either. -/
structure Undecided (c : Config) (s : Stamp) (now : ℕ) : Prop where
  used : s.sequence = lastSequence
  epoch_le : c.epoch ≤ now
  le_last : now ≤ s.timestamp + c.epoch
  kept : s.timestamp + c.epoch ≤ now + c.tolerance

/-- The stamps that complete calls of a sole caller lead to, each call on its own readings of 64 bits. -/
inductive Reaches (c : Config) : Stamp → Prop
  | start : c.Reaches {}
  | call {s s' : Stamp} {clock : ℕ → ℕ} {fuel place : ℕ} {answer : Except Refusal Int} (hs : c.Reaches s)
    (hclock : ∀ n, clock n < 1 <<< 64) (hcall : c.next (successive clock) fuel s 0 = some (answer, s', place)) :
    c.Reaches s'

/-! ### Sums and differences of words -/

/-- A sum that 64 bits hold. -/
def wordSum? (a b : ℕ) : Option ℕ := if a + b < 1 <<< 64 then some (a + b) else none

/-- A difference that is not below zero. -/
def wordDifference? (a b : ℕ) : Option ℕ := if b ≤ a then some (a - b) else none

/-- The refusal of a reading that lies too far before the last timestamp, from sums and differences of words; none if
one of them is no word. -/
def regressionInWords? (c : Config) (last now : ℕ) : Option (Option Refusal) :=
  if now < last then do
    let back ← wordDifference? last now
    if back > c.tolerance then
      return some (.clockWentBack (← wordSum? last c.epoch) (← wordSum? now c.epoch) back c.tolerance)
    else return none
  else return none

/-- No sum or difference leaves its word if the last timestamp was once shown by a clock of 64 bits. -/
theorem regressionInWords?_eq (hlast : 0 < s.timestamp → s.timestamp + c.epoch < 1 <<< 64) (now : ℕ) :
    c.regressionInWords? s.timestamp now = some (c.regression? s.timestamp now) := by
  rw [regressionInWords?, regression?]
  by_cases hnow : now < s.timestamp
  · have hlast := hlast (Nat.zero_lt_of_lt hnow)
    have hback : wordDifference? s.timestamp now = some (s.timestamp - now) := if_pos (Nat.le_of_lt hnow)
    have hsum : wordSum? s.timestamp c.epoch = some (s.timestamp + c.epoch) := if_pos hlast
    have hsum' : wordSum? now c.epoch = some (now + c.epoch) :=
      if_pos (Nat.lt_trans (Nat.add_lt_add_right hnow _) hlast)
    rw [if_pos hnow, hback, hsum, hsum']
    by_cases hfar : s.timestamp - now > c.tolerance
    · rw [if_pos ⟨hnow, hfar⟩]
      exact if_pos hfar
    · rw [if_neg fun h => hfar h.2]
      exact if_neg hfar
  · rw [if_neg hnow, if_neg fun h => hnow h.1]
    rfl

end Config

/-! ### One reading -/

theorem Stamp.next_of_lt {s : Stamp} {time : ℕ} (h : s.timestamp < time) : s.next time = ⟨time, 0⟩ := by
  rw [Stamp.next, Nat.max_eq_right (Nat.le_of_lt h), if_pos h]

theorem Stamp.next_of_le {s : Stamp} {time : ℕ} (h : time ≤ s.timestamp) :
    s.next time = ⟨s.timestamp, s.sequence + 1⟩ := by
  rw [Stamp.next, Nat.max_eq_left h, if_neg (Nat.not_lt_of_le h)]

namespace Config

theorem Verdict.not_undecided (hs : s.Fits) (h : c.Verdict s now answer s') : ¬c.Undecided s now := by
  intro hopen
  obtain ⟨hused, hepoch, hlast, hkept⟩ := hopen
  have hfits := hs.timestamp_le
  cases h with
  | early hnow => omega
  | wentBack hepoch hnow => omega
  | tooLate hepoch hnow => omega
  | issued hepoch hkept hfree hfits => omega

/-- No reading decides a call in two ways. -/
theorem Verdict.unique {answer' : Except Refusal Int} {s'' : Stamp} (hs : s.Fits) (h : c.Verdict s now answer s')
    (h' : c.Verdict s now answer' s'') : answer = answer' ∧ s' = s'' := by
  have hlast := hs.timestamp_le
  cases h <;> cases h' <;> first | exact ⟨rfl, rfl⟩ | omega

theorem relative_of_le (h : c.epoch ≤ now) : c.relative now = .ok (now - c.epoch) :=
  if_neg (Nat.not_lt_of_le h)

theorem regression?_eq_none (hepoch : c.epoch ≤ now) (h : s.timestamp + c.epoch ≤ now + c.tolerance) :
    c.regression? s.timestamp (now - c.epoch) = none :=
  if_neg (by omega)

/-- Where a caller stands after a reading. -/
theorem afterReading_eq (hs : s.Fits) (now : ℕ) :
    (∃ e, c.afterReading s now = .answered (.error e) ∧ c.Verdict s now (.error e) s) ∨
      (∃ next, c.afterReading s now = .swap s next ∧ c.Verdict s now (.ok (next.id c)) next) ∨
      c.afterReading s now = .wait s ∧ c.Undecided s now := by
  have hlast := hs.timestamp_le
  by_cases hearly : now < c.epoch
  · refine .inl ⟨.clockBeforeEpoch now c.epoch, ?_, .early hearly⟩
    rw [afterReading, relative, if_pos hearly]
  have hepoch : c.epoch ≤ now := Nat.le_of_not_lt hearly
  by_cases hback : now + c.tolerance < s.timestamp + c.epoch
  · have hregression : c.regression? s.timestamp (now - c.epoch) =
        some (.clockWentBack (s.timestamp + c.epoch) now (s.timestamp + c.epoch - now) c.tolerance) := by
      rw [regression?, if_pos (by omega), Nat.sub_add_cancel hepoch]
      congr 2
      omega
    refine .inl ⟨_, ?_, .wentBack hepoch hback⟩
    rw [afterReading, relative_of_le hepoch]
    dsimp only
    rw [hregression]
  have hkept : s.timestamp + c.epoch ≤ now + c.tolerance := Nat.le_of_not_lt hback
  have hread : c.afterReading s now =
      if now - c.epoch > s.timestamp then Stage.toward s ⟨now - c.epoch, 0⟩
      else if s.sequence = lastSequence then .wait s
      else .toward s ⟨s.timestamp, s.sequence + 1⟩ := by
    rw [afterReading, relative_of_le hepoch]
    dsimp only
    rw [regression?_eq_none hepoch hkept]
  rw [hread]
  by_cases hlater : now - c.epoch > s.timestamp
  · rw [if_pos hlater, Stage.toward]
    by_cases hfar : now - c.epoch > lastTimestamp
    · rw [if_pos hfar]
      exact .inl ⟨_, rfl, .tooLate hepoch hfar⟩
    · rw [if_neg hfar, ← Stamp.next_of_lt hlater]
      exact .inr (.inl ⟨_, rfl, .issued hepoch hkept (.inl (by omega)) (Nat.le_of_not_lt hfar)⟩)
  rw [if_neg hlater]
  by_cases hused : s.sequence = lastSequence
  · rw [if_pos hused]
    exact .inr (.inr ⟨rfl, hused, hepoch, by omega, hkept⟩)
  · have hsequence := hs.sequence_le
    rw [if_neg hused, Stage.toward, if_neg (Nat.not_lt_of_le hlast), ← Stamp.next_of_le (Nat.le_of_not_lt hlater)]
    exact .inr (.inl ⟨_, rfl, .issued hepoch hkept (.inr (by omega)) (by omega)⟩)

/-- A caller that has used up the sequence takes a reading as any other does. -/
theorem afterWaiting_eq (hused : s.sequence = lastSequence) (now : ℕ) :
    c.afterWaiting s now = c.afterReading s now := by
  rw [afterWaiting, afterReading, if_pos hused]

end Config

/-! ### One call -/

/-- The stage of a caller that is to take a reading on a stamp. -/
def Stage.Reads (s : Stamp) (stage : Stage) : Prop := stage = .read s ∨ stage = .wait s ∧ s.sequence = lastSequence

namespace Config

variable {stage : Stage} {clock : ℕ → ℕ} {fuel place place' : ℕ}

theorem finish_answered (clock : ℕ → ℕ) (fuel place : ℕ) (s : Stamp) (answer : Except Refusal Int) :
    c.finish (successive clock) fuel s place (.answered answer) = some (answer, s, place) := by
  cases fuel <;> rfl

/-- A swap succeeds if there is nobody else. -/
theorem finish_swap (clock : ℕ → ℕ) (fuel place : ℕ) (s next : Stamp) :
    c.finish (successive clock) (fuel + 1) s place (.swap s next) = some (.ok (next.id c), next, place) := by
  rw [finish]
  · simp only [Stage.readsClock, step, if_true, Bool.false_eq_true, if_false]
    exact finish_answered _ _ _ _ _
  · exact fun _ => nofun

theorem finish_reads (h : stage.Reads s) :
    c.finish (successive clock) (fuel + 1) s place stage =
      c.finish (successive clock) fuel s (place + 1) (c.afterReading s (clock place)) := by
  rcases h with rfl | ⟨rfl, hused⟩
  · rfl
  · rw [← afterWaiting_eq hused]
    rfl

/-- A call ends with what the first reading decides that decides anything. -/
theorem exists_verdict_of_finish (hs : s.Fits) (hstage : stage.Reads s)
    (h : c.finish (successive clock) fuel s place stage = some (answer, s', place')) :
    ∃ n, place' = place + n + 1 ∧ (∀ k < n, c.Undecided s (clock (place + k))) ∧
      c.Verdict s (clock (place + n)) answer s' := by
  induction fuel generalizing place stage with
  | zero => rcases hstage with rfl | ⟨rfl, -⟩ <;> cases h
  | succ fuel ih =>
    rw [finish_reads hstage] at h
    rcases c.afterReading_eq hs (clock place) with ⟨e, heq, hverdict⟩ | ⟨next, heq, hverdict⟩ | ⟨heq, hopen⟩
    · rw [heq, finish_answered] at h
      cases h
      exact ⟨0, rfl, fun _ hk => absurd hk (Nat.not_lt_zero _), hverdict⟩
    · rw [heq] at h
      cases fuel with
      | zero => cases h
      | succ fuel =>
        rw [finish_swap] at h
        cases h
        exact ⟨0, rfl, fun _ hk => absurd hk (Nat.not_lt_zero _), hverdict⟩
    · rw [heq] at h
      obtain ⟨n, hplace, hbefore, hverdict⟩ := ih (.inr ⟨rfl, hopen.used⟩) h
      refine ⟨n + 1, by omega, fun k hk => ?_, by rwa [Nat.add_right_comm] at hverdict⟩
      cases k with
      | zero => exact hopen
      | succ k =>
        have := hbefore k (by omega)
        rwa [Nat.add_right_comm] at this

/-- The call ends at the first reading that decides it. -/
theorem finish_of_verdict (hs : s.Fits) (hstage : stage.Reads s) {n : ℕ}
    (hbefore : ∀ k < n, c.Undecided s (clock (place + k))) (hverdict : c.Verdict s (clock (place + n)) answer s') :
    c.finish (successive clock) (n + 2) s place stage = some (answer, s', place + n + 1) := by
  induction n generalizing place stage with
  | zero =>
    rw [finish_reads hstage]
    rcases c.afterReading_eq hs (clock place) with ⟨e, heq, hother⟩ | ⟨next, heq, hother⟩ | ⟨heq, hopen⟩
    · obtain ⟨rfl, rfl⟩ := hother.unique hs hverdict
      rw [heq, finish_answered]
    · obtain ⟨rfl, rfl⟩ := hother.unique hs hverdict
      rw [heq, finish_swap]
    · exact absurd hopen (hverdict.not_undecided hs)
  | succ n ih =>
    have hfirst : c.Undecided s (clock place) := hbefore 0 (Nat.succ_pos n)
    rw [finish_reads hstage]
    rcases c.afterReading_eq hs (clock place) with ⟨e, heq, hother⟩ | ⟨next, heq, hother⟩ | ⟨heq, hopen⟩
    · exact absurd hfirst (hother.not_undecided hs)
    · exact absurd hfirst (hother.not_undecided hs)
    · rw [heq, ih (.inr ⟨rfl, hopen.used⟩) (fun k hk => ?_) (by rwa [Nat.add_right_comm])]
      · rw [Nat.add_right_comm place]
        rfl
      · rw [Nat.add_right_comm]
        exact hbefore (k + 1) (by omega)

theorem exists_next_iff (hs : s.Fits) (clock : ℕ → ℕ) :
    (∃ fuel, c.next (successive clock) fuel s 0 = some (answer, s', place')) ↔
      ∃ n, place' = n + 1 ∧ (∀ k < n, c.Undecided s (clock k)) ∧ c.Verdict s (clock n) answer s' := by
  -- the first step of a call loads the stamp
  have hload (fuel : ℕ) : c.next (successive clock) (fuel + 1) s 0 =
      c.finish (successive clock) fuel s 0 (.read s) := rfl
  constructor
  · rintro ⟨fuel, hcall⟩
    cases fuel with
    | zero => cases hcall
    | succ fuel =>
      rw [hload] at hcall
      simpa only [Nat.zero_add] using exists_verdict_of_finish hs (.inl rfl) hcall
  · rintro ⟨n, rfl, hbefore, hverdict⟩
    refine ⟨n + 2 + 1, ?_⟩
    rw [hload, finish_of_verdict hs (.inl rfl) (n := n) (by simpa only [Nat.zero_add] using hbefore)
      (by simpa only [Nat.zero_add] using hverdict), Nat.zero_add]

theorem exists_verdict (hs : s.Fits) (h : ¬c.Undecided s now) : ∃ answer s', c.Verdict s now answer s' := by
  rcases c.afterReading_eq hs now with ⟨e, -, hverdict⟩ | ⟨next, -, hverdict⟩ | ⟨-, hopen⟩
  · exact ⟨_, _, hverdict⟩
  · exact ⟨_, _, hverdict⟩
  · exact absurd hopen h

/-! ### The stamps of a run of calls -/

theorem Verdict.fits (hs : s.Fits) (h : c.Verdict s now answer s') : s'.Fits := by
  cases h with
  | early | wentBack | tooLate => exact hs
  | issued hepoch hkept hfree hfits =>
    refine ⟨Nat.max_le.2 ⟨hs.timestamp_le, hfits⟩, ?_⟩
    rw [Stamp.next]
    dsimp only
    split <;> omega

/-- The time of a stamp was shown by a clock of 64 bits, unless no id is issued yet. -/
theorem Verdict.shown (hs : 0 < s.timestamp → s.timestamp + c.epoch < 1 <<< 64) (hnow : now < 1 <<< 64)
    (h : c.Verdict s now answer s') : 0 < s'.timestamp → s'.timestamp + c.epoch < 1 <<< 64 := by
  cases h with
  | early | wentBack | tooLate => exact hs
  | issued hepoch hkept hfree hfits =>
    intro hpos
    rw [Stamp.next] at hpos ⊢
    dsimp only at hpos ⊢
    omega

theorem Reaches.bounds (h : c.Reaches s) :
    s.Fits ∧ (0 < s.timestamp → s.timestamp + c.epoch < 1 <<< 64) := by
  induction h with
  | start => exact ⟨Stamp.fits_zero, fun hpos => absurd hpos (Nat.lt_irrefl 0)⟩
  | call hs hclock hcall ih =>
    obtain ⟨n, -, -, hverdict⟩ := (exists_next_iff ih.1 _).1 ⟨_, hcall⟩
    exact ⟨hverdict.fits ih.1, hverdict.shown ih.2 (hclock n)⟩

theorem Reaches.issued (hs : c.Reaches s) (now : ℕ) (hepoch : c.epoch ≤ now) (hnow : now < 1 <<< 64)
    (hkept : s.timestamp + c.epoch ≤ now + c.tolerance)
    (hfree : s.timestamp + c.epoch < now ∨ s.sequence < lastSequence) (hfits : now - c.epoch ≤ lastTimestamp) :
    c.Reaches (s.next (now - c.epoch)) := by
  obtain ⟨fuel, hcall⟩ := (exists_next_iff hs.bounds.1 fun _ => now).2
    ⟨0, rfl, fun _ hk => absurd hk (Nat.not_lt_zero _), .issued hepoch hkept hfree hfits⟩
  exact .call hs (fun _ => hnow) hcall

/-- A call of a sole caller does what its stamp and the readings dictate. It ends at the first reading that decides it,
if there is one, with the answer and the stamp that this reading decides; a refusal leaves the stamp as it was, and an
id is decoded into the new one. No sum or difference that a reading leads to leaves its 64 bits. -/
theorem next_iff_verdict (c : Config) (hnode : c.node ≤ 1023) {s : Stamp} (hs : c.Reaches s) (clock : ℕ → ℕ) :
    (∀ answer s' place, (∃ fuel, c.next (successive clock) fuel s 0 = some (answer, s', place)) ↔
      ∃ n, place = n + 1 ∧ (∀ k < n, c.Undecided s (clock k)) ∧ c.Verdict s (clock n) answer s') ∧
    ((∃ fuel, (c.next (successive clock) fuel s 0).isSome) ↔ ∃ n, ¬c.Undecided s (clock n)) ∧
    (∀ fuel answer s' place, c.next (successive clock) fuel s 0 = some (answer, s', place) →
      (∀ e, answer = .error e → s' = s) ∧
      ∀ id, answer = .ok id → decode id = ⟨s'.timestamp, c.node, s'.sequence⟩) ∧
    ∀ n now, c.relative (clock n) = .ok now →
      c.regressionInWords? s.timestamp now = some (c.regression? s.timestamp now) := by
  obtain ⟨hfits, hshown⟩ := hs.bounds
  refine ⟨fun answer s' place => exists_next_iff hfits clock, ⟨?_, ?_⟩, ?_,
    fun n now _ => regressionInWords?_eq hshown now⟩
  · rintro ⟨fuel, hsome⟩
    obtain ⟨⟨answer, s', place⟩, hcall⟩ := Option.isSome_iff_exists.1 hsome
    obtain ⟨n, -, -, hverdict⟩ := (exists_next_iff hfits clock).1 ⟨fuel, hcall⟩
    exact ⟨n, hverdict.not_undecided hfits⟩
  · intro hdecided
    classical
    obtain ⟨answer, s', hverdict⟩ := exists_verdict hfits (Nat.find_spec hdecided)
    obtain ⟨fuel, hcall⟩ := (exists_next_iff hfits clock).2
      ⟨Nat.find hdecided, rfl, fun k hk => not_not.1 (Nat.find_min hdecided hk), hverdict⟩
    exact ⟨fuel, Option.isSome_iff_exists.2 ⟨_, hcall⟩⟩
  · intro fuel answer s' place hcall
    obtain ⟨n, -, -, hverdict⟩ := (exists_next_iff hfits clock).1 ⟨fuel, hcall⟩
    refine ⟨fun e he => ?_, fun id hid => ?_⟩
    · subst he
      cases hverdict <;> rfl
    · have hnext := hverdict.fits hfits
      subst hid
      cases hverdict
      exact Stamp.decode_id hnode hnext

theorem reaches_sequence {k : ℕ} (h : k ≤ 4095) : ({} : Config).Reaches ⟨5, k⟩ := by
  have htime : defaultEpoch + 5 - ({} : Config).epoch = 5 := Nat.add_sub_cancel_left _ _
  induction k with
  | zero =>
    have hnext := Reaches.start.issued (c := {}) (defaultEpoch + 5) (by decide) (by decide) (by decide) (.inl (by decide))
      (by decide)
    rwa [htime] at hnext
  | succ k ih =>
    have hkept : 5 + defaultEpoch ≤ defaultEpoch + 5 + ({} : Config).tolerance := by decide
    have hnext := (ih (by omega)).issued (defaultEpoch + 5) (by decide) (by decide) hkept (.inr h) (by decide)
    rwa [htime, Stamp.next_of_le (Nat.le_refl 5)] at hnext

/-- The ids of a millisecond are used up; the clock stands still, falls back by three milliseconds and goes on. -/
def hesitant (n : ℕ) : ℕ := defaultEpoch + [5, 2, 9].getD n 9

theorem used_up_next : ({} : Config).node ≤ 1023 ∧ ({} : Config).Reaches ⟨5, 4095⟩ ∧
    ∃ fuel, ({} : Config).next (successive hesitant) fuel ⟨5, 4095⟩ 0 = some (.ok (Stamp.id ⟨9, 0⟩ {}), ⟨9, 0⟩, 3) := by
  have hreaches : ({} : Config).Reaches ⟨5, 4095⟩ := reaches_sequence (Nat.le_refl 4095)
  have hopen (k : ℕ) (hk : k < 2) : ({} : Config).Undecided ⟨5, 4095⟩ (hesitant k) := by
    match k, hk with
    | 0, _ => exact ⟨rfl, by decide, by decide, by decide⟩
    | 1, _ => exact ⟨rfl, by decide, by decide, by decide⟩
  have hnext : Stamp.next ⟨5, 4095⟩ (hesitant 2 - defaultEpoch) = ⟨9, 0⟩ := by decide
  have hverdict : ({} : Config).Verdict ⟨5, 4095⟩ (hesitant 2) (.ok (Stamp.id ⟨9, 0⟩ {})) ⟨9, 0⟩ := by
    rw [← hnext]
    exact .issued (by decide) (by decide) (.inl (by decide)) (by decide)
  exact ⟨by decide, hreaches,
    ((next_iff_verdict {} (by decide) hreaches hesitant).1 _ _ _).2 ⟨2, rfl, hopen, hverdict⟩⟩

end Config

end Outbox.Snowflake
