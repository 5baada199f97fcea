import Mathlib.Data.List.Nodup
import Mathlib.Data.List.Perm.Subperm
import Mathlib.Logic.Function.Basic
import Outbox.Proofs.Snowflake.Stamp

/-! Any number of callers of one generator. Each takes its atomic steps when its turn comes, in any order of
turns, and every reading of the clock may be any number. What a caller is about to swap in is after the stamp
that it loaded, and the swap succeeds only on that stamp; so the shared stamp only moves forward, and the ids
ascend in the order of the swaps. -/

namespace Outbox.Snowflake

/-- An id that was issued. -/
structure Issue (ι : Type) where
  caller : ι
  /-- How many ids had been issued when the call began. -/
  begun : Nat
  id : Int

/-- A generator with its callers. -/
structure Office (ι : Type) where
  stamp : Stamp := {}
  /-- Where the call of each caller stands, and how many ids had been issued when it began; none between two
  calls. -/
  call : ι → Option (Nat × Stage) := fun _ => none
  /-- The ids in the order of the swaps that issued them. -/
  issued : List (Issue ι) := []

/-- The id that a call is answered with. -/
def Stage.id? : Stage → Option Int
  | .answered (.ok id) => some id
  | _ => none

namespace Office

variable {ι : Type} [DecidableEq ι] {c : Config} {o : Office ι}

/-- The turn of a caller: it begins a call, takes one step of it, or takes the answer. `reading` is what the
clock shows if the step reads it. -/
def turn (c : Config) (o : Office ι) (caller : ι) (reading : Nat) : Office ι :=
  match o.call caller with
  | none => { o with call := Function.update o.call caller (some (o.issued.length, .load)) }
  | some (_, .answered _) => { o with call := Function.update o.call caller none }
  | some (begun, stage) =>
    let (stamp, stage) := c.step o.stamp reading stage
    { stamp := stamp
      call := Function.update o.call caller (some (begun, stage))
      issued := o.issued ++ (stage.id?.map fun id => ⟨caller, begun, id⟩).toList }

/-- Turns one after the other, each of a caller with a reading, from a new generator. -/
def run (c : Config) (turns : List (ι × Nat)) : Office ι :=
  turns.foldl (fun o turn => o.turn c turn.1 turn.2) {}

end Office

/-! ### The steps of one caller -/

/-- A stage that leads to ids in order: what the caller loaded fits its bits, and what it is about to swap in
fits them and comes after that. -/
def Stage.Sound : Stage → Prop
  | .load | .answered _ => True
  | .read seen | .wait seen => seen.Fits
  | .swap seen next => seen.Fits ∧ next.Fits ∧ seen.Before next

theorem toward_sound {seen next : Stamp} (hseen : seen.Fits) (hnext : next.sequence ≤ lastSequence)
    (h : seen.Before next) : (Stage.toward seen next).Sound := by
  rw [Stage.toward]
  split
  · trivial
  · next hle => exact ⟨hseen, ⟨Nat.le_of_not_lt hle, hnext⟩, h⟩

theorem id?_toward (seen next : Stamp) : (Stage.toward seen next).id? = none := by
  rw [Stage.toward]
  split <;> rfl

theorem afterReading_sound {c : Config} {seen : Stamp} (hseen : seen.Fits) (now : Nat) :
    (c.afterReading seen now).Sound := by
  rw [Config.afterReading]
  split
  · trivial
  split
  · trivial
  split
  · next hlater => exact toward_sound hseen (Nat.zero_le _) (.inl hlater)
  split
  · exact hseen
  · next hsequence =>
    have hle := hseen.sequence_le
    exact toward_sound hseen (by simp only; omega) (.inr ⟨rfl, Nat.lt_succ_self _⟩)

theorem afterWaiting_sound {c : Config} {seen : Stamp} (hseen : seen.Fits) (now : Nat) :
    (c.afterWaiting seen now).Sound := by
  rw [Config.afterWaiting]
  split
  · trivial
  split
  · trivial
  split
  · next hlater => exact toward_sound hseen (Nat.zero_le _) (.inl hlater)
  · exact hseen

theorem id?_afterReading (c : Config) (seen : Stamp) (now : Nat) : (c.afterReading seen now).id? = none := by
  rw [Config.afterReading]
  split
  · rfl
  split
  · rfl
  split
  · exact id?_toward _ _
  split
  · rfl
  · exact id?_toward _ _

theorem id?_afterWaiting (c : Config) (seen : Stamp) (now : Nat) : (c.afterWaiting seen now).id? = none := by
  rw [Config.afterWaiting]
  split
  · rfl
  split
  · rfl
  split
  · exact id?_toward _ _
  · rfl

/-- One step of a sound stage: it moves nothing and issues nothing, or it swaps in a later stamp and issues
its id. -/
theorem step_sound {c : Config} {shared : Stamp} {stage : Stage} (hshared : shared.Fits) (h : stage.Sound)
    (hopen : ∀ answer, stage ≠ .answered answer) (reading : Nat) :
    (c.step shared reading stage).2.Sound ∧
      ((c.step shared reading stage).1 = shared ∧ (c.step shared reading stage).2.id? = none ∨
        ∃ next : Stamp, next.Fits ∧ shared.Before next ∧
          c.step shared reading stage = (next, .answered (.ok (next.id c)))) := by
  cases stage with
  | load => exact ⟨hshared, .inl ⟨rfl, rfl⟩⟩
  | read seen => exact ⟨afterReading_sound h reading, .inl ⟨rfl, id?_afterReading c seen reading⟩⟩
  | wait seen => exact ⟨afterWaiting_sound h reading, .inl ⟨rfl, id?_afterWaiting c seen reading⟩⟩
  | swap seen next =>
    obtain ⟨-, hnext, hbefore⟩ := h
    rw [Config.step]
    split
    · next hsame => exact ⟨trivial, .inr ⟨next, hnext, hsame ▸ hbefore, rfl⟩⟩
    · exact ⟨trivial, .inl ⟨rfl, rfl⟩⟩
  | answered answer => exact absurd rfl (hopen answer)

namespace Office

variable {ι : Type} [DecidableEq ι] {c : Config} {o : Office ι}

/-! ### All callers -/

/-- What holds between any two turns. -/
structure Sound (c : Config) (o : Office ι) : Prop where
  fits : o.stamp.Fits
  /-- The shared stamp is the first one as long as no id is issued. -/
  moved : o.stamp = {} ∨ ({} : Stamp).Before o.stamp
  stages : ∀ caller begun stage, o.call caller = some (begun, stage) → stage.Sound ∧ begun ≤ o.issued.length
  answers : ∀ caller begun id, o.call caller = some (begun, .answered (.ok id)) → ⟨caller, begun, id⟩ ∈ o.issued
  /-- Every id is that of a stamp up to the shared one. -/
  stamped : ∀ issue ∈ o.issued, issue.id ≤ o.stamp.id c ∧
    ∃ s : Stamp, s.Fits ∧ ({} : Stamp).Before s ∧ issue.id = s.id c
  ascending : (o.issued.map Issue.id).Pairwise (· < ·)
  begun_le : ∀ (k : ℕ) (issue : Issue ι), o.issued[k]? = some issue → issue.begun ≤ k

omit [DecidableEq ι] in
theorem sound_start : ({} : Office ι).Sound c where
  fits := Stamp.fits_zero
  moved := .inl rfl
  stages _ _ _ h := by cases h
  answers _ _ _ h := by cases h
  stamped _ h := by cases h
  ascending := .nil
  begun_le _ _ h := by cases h

theorem call_of_update {call : ι → Option (ℕ × Stage)} {caller other : ι} {place : Option (ℕ × Stage)}
    {here : ℕ × Stage} (h : Function.update call caller place other = some here) :
    other = caller ∧ place = some here ∨ call other = some here := by
  by_cases hother : other = caller
  · rw [hother, Function.update_self] at h
    exact .inl ⟨hother, h⟩
  · rw [Function.update_of_ne hother] at h
    exact .inr h

/-- A caller moves to another stage, and nothing else happens. -/
theorem Sound.moveTo (h : o.Sound c) (caller : ι) (place : Option (ℕ × Stage))
    (hplace : ∀ begun stage, place = some (begun, stage) →
      stage.Sound ∧ begun ≤ o.issued.length ∧ stage.id? = none) :
    Sound c { o with call := Function.update o.call caller place } where
  fits := h.fits
  moved := h.moved
  stages other begun stage hcall := by
    rcases call_of_update hcall with ⟨-, hhere⟩ | hold
    · exact ⟨(hplace begun stage hhere).1, (hplace begun stage hhere).2.1⟩
    · exact h.stages other begun stage hold
  answers other begun id hcall := by
    rcases call_of_update hcall with ⟨-, hhere⟩ | hold
    · cases (hplace begun _ hhere).2.2
    · exact h.answers other begun id hold
  stamped := h.stamped
  ascending := h.ascending
  begun_le := h.begun_le

/-- A caller swaps in a later stamp, and its id is issued. -/
theorem Sound.issue (h : o.Sound c) (caller : ι) {begun : ℕ} (hbegun : begun ≤ o.issued.length) {next : Stamp}
    (hnext : next.Fits) (hbefore : o.stamp.Before next) :
    Sound c {
      stamp := next
      call := Function.update o.call caller (some (begun, .answered (.ok (next.id c))))
      issued := o.issued ++ [⟨caller, begun, next.id c⟩] } := by
  have hlt : o.stamp.id c < next.id c := Stamp.id_lt_id h.fits hbefore
  have hfirst : ({} : Stamp).Before next := by
    rcases h.moved with hstart | hmoved
    · exact hstart ▸ hbefore
    · simp only [Stamp.Before] at hmoved hbefore ⊢
      omega
  refine ⟨hnext, .inr hfirst, fun other begun' stage hcall => ?_, fun other begun' id hcall => ?_,
    fun issue hissue => ?_, ?_, fun k issue hk => ?_⟩
  · rw [List.length_append]
    rcases call_of_update hcall with ⟨-, ⟨⟩⟩ | hold
    · exact ⟨trivial, Nat.le_add_right_of_le hbegun⟩
    · obtain ⟨hstage, hle⟩ := h.stages other begun' stage hold
      exact ⟨hstage, Nat.le_add_right_of_le hle⟩
  · rcases call_of_update hcall with ⟨rfl, ⟨⟩⟩ | hold
    · exact List.mem_append_right _ List.mem_cons_self
    · exact List.mem_append_left _ (h.answers other begun' id hold)
  · rcases List.mem_append.1 hissue with hold | hnew
    · obtain ⟨hle, hstamp⟩ := h.stamped issue hold
      exact ⟨Int.le_of_lt (Int.lt_of_le_of_lt hle hlt), hstamp⟩
    · cases List.mem_singleton.1 hnew
      exact ⟨Int.le_refl _, next, hnext, hfirst, rfl⟩
  · rw [List.map_append, List.pairwise_append]
    refine ⟨h.ascending, List.pairwise_singleton _ _, fun id hid other hother => ?_⟩
    obtain ⟨issue, hissue, rfl⟩ := List.mem_map.1 hid
    cases List.mem_singleton.1 hother
    exact Int.lt_of_le_of_lt (h.stamped issue hissue).1 hlt
  · rw [List.getElem?_append] at hk
    split at hk
    · exact h.begun_le k issue hk
    · next hge =>
      cases List.mem_singleton.1 (List.mem_of_getElem? hk)
      exact Nat.le_trans hbegun (Nat.le_of_not_lt hge)

theorem turn_sound (h : o.Sound c) (caller : ι) (reading : ℕ) : (o.turn c caller reading).Sound c := by
  rw [turn]
  split
  · refine h.moveTo caller _ fun begun stage hplace => ?_
    cases hplace
    exact ⟨trivial, Nat.le_refl _, rfl⟩
  · exact h.moveTo caller none fun _ _ hplace => by cases hplace
  · next begun stage hopen hcall =>
    obtain ⟨hstage, hbegun⟩ := h.stages caller begun stage hcall
    have hstep := step_sound (c := c) h.fits hstage hopen reading
    obtain ⟨hsound, ⟨hstamp, hnone⟩ | ⟨next, hnext, hbefore, heq⟩⟩ := hstep
    · have hmove := h.moveTo caller (some (begun, (c.step o.stamp reading stage).2)) fun begun' stage' hplace => by
        cases hplace
        exact ⟨hsound, hbegun, hnone⟩
      simpa only [hstamp, hnone, Option.map_none, Option.toList_none, List.append_nil] using hmove
    · simpa only [heq, Stage.id?, Option.map_some, Option.toList_some] using h.issue caller hbegun hnext hbefore

theorem run_sound (c : Config) (turns : List (ι × ℕ)) : (run c turns).Sound c := by
  suffices ∀ o : Office ι, o.Sound c → (turns.foldl (fun o turn => o.turn c turn.1 turn.2) o).Sound c from
    this {} sound_start
  induction turns with
  | nil => exact fun o h => h
  | cons turn rest ih => exact fun o h => ih _ (turn_sound h turn.1 turn.2)

/-! ### The ids -/

omit [DecidableEq ι] in
/-- An id is decoded into its stamp and the node. -/
theorem Sound.exists_stamp (h : o.Sound c) (hnode : c.node ≤ lastNode) {issue : Issue ι}
    (hissue : issue ∈ o.issued) : ∃ s : Stamp, s.Fits ∧ ({} : Stamp).Before s ∧ issue.id = s.id c ∧
      decode issue.id = ⟨s.timestamp, c.node, s.sequence⟩ := by
  obtain ⟨-, s, hfits, hfirst, hid⟩ := h.stamped issue hissue
  exact ⟨s, hfits, hfirst, hid, by rw [hid, Stamp.decode_id hnode hfits]⟩

omit [DecidableEq ι] in
/-- The ids of one millisecond differ in their sequence, so there are no more of them than sequences. -/
theorem Sound.length_filter_le (h : o.Sound c) (hnode : c.node ≤ lastNode) (time : ℕ) :
    (o.issued.filter fun issue => (decode issue.id).timestamp = time).length ≤ 4096 := by
  set same := o.issued.filter fun issue => (decode issue.id).timestamp = time with hsame
  have hmem : ∀ issue ∈ same, issue ∈ o.issued ∧ (decode issue.id).timestamp = time := fun issue hissue => by
    simpa [hsame, List.mem_filter] using hissue
  have hnodup : (same.map fun issue => (decode issue.id).sequence).Nodup := by
    refine List.pairwise_map.2 (((List.pairwise_map.1 h.ascending).filter _).imp_of_mem ?_)
    intro a b ha hb hlt hsequence
    obtain ⟨sa, -, -, hida, hdecodea⟩ := h.exists_stamp hnode (hmem a ha).1
    obtain ⟨sb, -, -, hidb, hdecodeb⟩ := h.exists_stamp hnode (hmem b hb).1
    have htime := (hmem a ha).2.trans (hmem b hb).2.symm
    rw [hdecodea, hdecodeb] at htime hsequence
    simp only at htime hsequence
    rw [hida, hidb, Stamp.id, Stamp.id, htime, hsequence] at hlt
    exact Int.lt_irrefl _ hlt
  have hrange : (same.map fun issue => (decode issue.id).sequence) ⊆ List.range 4096 := by
    intro sequence hsequence
    obtain ⟨issue, hissue, rfl⟩ := List.mem_map.1 hsequence
    obtain ⟨s, hfits, -, -, hdecode⟩ := h.exists_stamp hnode (hmem issue hissue).1
    have hle := hfits.sequence_le
    rw [lastSequence_eq] at hle
    rw [hdecode, List.mem_range]
    exact Nat.lt_succ_of_le hle
  have hle := (List.subperm_of_subset hnodup hrange).length_le
  rwa [List.length_map, List.length_range] at hle

/-- The ids that callers of one generator are answered with ascend in the order of the swaps, whatever the order
of the callers' steps and whatever the clock shows. So no id is issued twice, each caller sees its ids ascend,
and a call that begins after an id was issued is answered with a larger one. Ids are positive and within 63
bits, their time is within its 41 bits, and no more than 4096 of them have one time. -/
theorem issued_ascending (c : Config) (hnode : c.node ≤ 1023) (turns : List (ι × ℕ)) :
    let o := run c turns
    (o.issued.map Issue.id).Pairwise (· < ·) ∧ (o.issued.map Issue.id).Nodup ∧
    (∀ caller, ((o.issued.filter (·.caller = caller)).map Issue.id).Pairwise (· < ·)) ∧
    (∀ (j k : ℕ) (a b : Issue ι), o.issued[j]? = some a → o.issued[k]? = some b → j < b.begun → a.id < b.id) ∧
    (∀ caller begun id, o.call caller = some (begun, .answered (.ok id)) → ⟨caller, begun, id⟩ ∈ o.issued) ∧
    (∀ issue ∈ o.issued, 0 < issue.id ∧ issue.id < 1 <<< 63 ∧ (decode issue.id).timestamp ≤ 1 <<< 41 - 1) ∧
    ∀ time, (o.issued.filter fun issue => (decode issue.id).timestamp = time).length ≤ 4096 := by
  intro o
  have h : o.Sound c := run_sound c turns
  have hpairs := List.pairwise_map.1 h.ascending
  refine ⟨h.ascending, h.ascending.imp Int.ne_of_lt, fun caller => List.pairwise_map.2 (hpairs.filter _),
    fun j k a b ha hb hj => ?_, h.answers, fun issue hissue => ?_, h.length_filter_le hnode⟩
  · obtain ⟨hja, rfl⟩ := List.getElem?_eq_some_iff.1 ha
    obtain ⟨hkb, rfl⟩ := List.getElem?_eq_some_iff.1 hb
    exact List.pairwise_iff_getElem.1 hpairs j k hja hkb (Nat.lt_of_lt_of_le hj (h.begun_le k _ hb))
  · obtain ⟨s, hfits, hfirst, hid, hdecode⟩ := h.exists_stamp hnode hissue
    refine ⟨hid ▸ Stamp.id_pos hfirst, hid ▸ Stamp.id_lt hnode hfits, ?_⟩
    rw [hdecode]
    exact hfits.timestamp_le

/-- Two callers load the first stamp and read the same time; one swaps, the other fails to, loads again and
finds that the clock has fallen back by three milliseconds. -/
def race : List (Bool × ℕ) :=
  [(false, 0), (true, 0), (false, 0), (true, 0), (false, defaultEpoch + 5), (true, defaultEpoch + 5),
    (true, 0), (false, 0), (false, 0), (false, defaultEpoch + 2), (false, 0)]

theorem race_ascending :
    (run { node := 7 } race).issued.map (fun issue => (issue.caller, issue.begun, decode issue.id)) =
      [(true, 0, ⟨5, 7, 0⟩), (false, 0, ⟨5, 7, 1⟩)] ∧
    ((run { node := 7 } race).issued.map Issue.id).Pairwise (· < ·) :=
  ⟨by decide, (issued_ascending { node := 7 } (by decide) race).1⟩

end Office

end Outbox.Snowflake
