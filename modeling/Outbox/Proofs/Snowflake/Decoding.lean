import Mathlib.Data.List.Induction
import Outbox.Proofs.Snowflake.Callers

/-! What an id tells. It is decoded into the node and the stamp that its swap left, and recomposed from its fields.
Beside the office a diary is kept of the readings on which ids were issued: the time of the shared stamp is the latest
of them, so that is the time in the id. Generators of different nodes never issue the same id. -/

namespace Outbox.Snowflake

/-! ### Fields -/

/-- The fields of a number of 63 bits, as quotients and remainders. -/
theorem decode_eq {id : Int} (h : 0 ≤ id) (hlt : id < 1 <<< 63) :
    decode id = ⟨id.toNat / 4194304, id.toNat / 4096 % 1024, id.toNat % 4096⟩ := by
  have hbits : id % 18446744073709551616 = id := Int.emod_eq_of_lt h (Int.lt_trans hlt (by decide))
  rw [decode, hbits]
  simp only [Nat.shiftRight_eq_div_pow]
  rfl

theorem fits_decode {id : Int} (h : 0 ≤ id) (hlt : id < 1 <<< 63) : (decode id).Fits := by
  have htop : id < 9223372036854775808 := hlt
  rw [decode_eq h hlt]
  constructor
  · rw [lastTimestamp_eq]
    dsimp only
    omega
  · exact Nat.le_of_lt_succ (Nat.mod_lt _ (by decide))
  · exact Nat.le_of_lt_succ (Nat.mod_lt _ (by decide))

/-- The fields of a number make up the number. -/
theorem id_decode {id : Int} (h : 0 ≤ id) (hlt : id < 1 <<< 63) : (decode id).id = id := by
  rw [Parts.id_eq, decode_eq h hlt]
  dsimp only
  omega

namespace Stamp

variable {s : Stamp}

theorem word_shiftRight (h : s.Fits) : s.word >>> sequenceBits = s.timestamp := by
  have hsequence := h.sequence_le
  rw [lastSequence_eq] at hsequence
  rw [word_eq h, Nat.shiftRight_eq_div_pow]
  change (s.timestamp * 4096 + s.sequence) / 4096 = s.timestamp
  omega

theorem word_and (h : s.Fits) : s.word &&& lastSequence = s.sequence := by
  have hsequence := h.sequence_le
  rw [lastSequence_eq] at hsequence
  have hmask : s.word &&& lastSequence = s.word % 4096 := Nat.and_two_pow_sub_one_eq_mod s.word 12
  rw [hmask, word_eq h]
  omega

end Stamp

/-! ### Turns -/

theorem of_toward {seen seen' next next' : Stamp} (h : Stage.toward seen next = .swap seen' next') :
    seen' = seen ∧ next' = next := by
  rw [Stage.toward] at h
  split at h
  · cases h
  · cases h
    exact ⟨rfl, rfl⟩

/-- A caller that is about to swap took a reading that is not before the epoch, and the time of its next stamp is the
later one of the last time and the reading. -/
theorem swap_of_afterReading {c : Config} {seen seen' next : Stamp} {now : ℕ}
    (h : c.afterReading seen now = .swap seen' next) :
    c.epoch ≤ now ∧ next.timestamp + c.epoch = max (seen'.timestamp + c.epoch) now := by
  rw [Config.afterReading, Config.relative] at h
  by_cases hearly : now < c.epoch
  · rw [if_pos hearly] at h
    cases h
  rw [if_neg hearly] at h
  dsimp only at h
  refine ⟨Nat.le_of_not_lt hearly, ?_⟩
  split at h
  · cases h
  split at h
  · next hlater =>
    obtain ⟨rfl, rfl⟩ := of_toward h
    dsimp only
    omega
  split at h
  · cases h
  · next hnot _ =>
    obtain ⟨rfl, rfl⟩ := of_toward h
    dsimp only
    omega

/-- A caller that has waited swaps as one that has not. -/
theorem afterReading_of_afterWaiting {c : Config} {seen seen' next : Stamp} {now : ℕ}
    (h : c.afterWaiting seen now = .swap seen' next) : c.afterReading seen now = .swap seen' next := by
  rw [Config.afterWaiting] at h
  rw [Config.afterReading]
  split at h
  · cases h
  split at h
  · cases h
  · split at h
    · next hlater => exact (if_pos hlater).trans h
    · cases h

namespace Office

variable {ι : Type} [DecidableEq ι] {c : Config} {o : Office ι}

/-- All that a turn can do: the caller moves to another place, or it swaps its next stamp in and its id is issued. It
stands before a swap only right after a reading. -/
inductive Turned (c : Config) (o : Office ι) (caller : ι) (reading : ℕ) : Office ι → Prop
  | moved (place : Option (ℕ × Stage))
    (hplace : ∀ begun seen next, place = some (begun, .swap seen next) →
      (∃ stage : Stage, o.call caller = some (begun, stage) ∧ stage.readsClock = true) ∧
      c.epoch ≤ reading ∧ next.timestamp + c.epoch = max (seen.timestamp + c.epoch) reading) :
    Turned c o caller reading { o with call := Function.update o.call caller place }
  | swapped (begun : ℕ) (next : Stamp) (hcall : o.call caller = some (begun, .swap o.stamp next)) :
    Turned c o caller reading {
      stamp := next
      call := Function.update o.call caller (some (begun, .answered (.ok (next.id c))))
      issued := o.issued ++ [⟨caller, begun, next.id c⟩] }

theorem turned_turn (c : Config) (o : Office ι) (caller : ι) (reading : ℕ) :
    Turned c o caller reading (o.turn c caller reading) := by
  rw [turn]
  split
  · exact .moved (some (o.issued.length, .load)) fun _ _ _ h => by cases h
  · exact .moved none fun _ _ _ h => by cases h
  · next begun stage hopen hcall =>
    cases stage with
    | load =>
      simp only [Config.step, Stage.id?, Option.map_none, Option.toList_none, List.append_nil]
      exact .moved (some (begun, .read o.stamp)) fun _ _ _ h => by cases h
    | read seen =>
      simp only [Config.step, id?_afterReading, Option.map_none, Option.toList_none, List.append_nil]
      refine .moved _ fun begun' seen' next hplace => ⟨⟨.read seen, ?_, rfl⟩, ?_⟩
      · rw [hcall, (Prod.mk.inj (Option.some.inj hplace)).1]
      · exact swap_of_afterReading (Prod.mk.inj (Option.some.inj hplace)).2
    | wait seen =>
      simp only [Config.step, id?_afterWaiting, Option.map_none, Option.toList_none, List.append_nil]
      refine .moved _ fun begun' seen' next hplace => ⟨⟨.wait seen, ?_, rfl⟩, ?_⟩
      · rw [hcall, (Prod.mk.inj (Option.some.inj hplace)).1]
      · exact swap_of_afterReading (afterReading_of_afterWaiting (Prod.mk.inj (Option.some.inj hplace)).2)
    | swap seen next =>
      by_cases hsame : o.stamp = seen
      · subst hsame
        simp only [Config.step, if_true, Stage.id?, Option.map_some, Option.toList_some]
        exact .swapped begun next hcall
      · simp only [Config.step, if_neg hsame, Stage.id?, Option.map_none, Option.toList_none, List.append_nil]
        exact .moved (some (begun, .load)) fun _ _ _ h => by cases h
    | answered answer => exact absurd rfl (hopen answer)

end Office

/-! ### Diaries -/

/-- An office with the reading that each caller took last and, in the order of the ids, those that ids were issued on:
the last ones before the swaps. -/
structure Diary (ι : Type) extends Office ι where
  shown : ι → ℕ := fun _ => 0
  accepted : List ℕ := []

namespace Diary

variable {ι : Type} [DecidableEq ι] {c : Config} {d : Diary ι}

def turn (c : Config) (d : Diary ι) (caller : ι) (reading : ℕ) : Diary ι where
  toOffice := d.toOffice.turn c caller reading
  shown other :=
    if other = caller ∧ (d.call caller).any (fun place => place.2.readsClock) then reading else d.shown other
  accepted :=
    if d.issued.length < (d.toOffice.turn c caller reading).issued.length then d.accepted ++ [d.shown caller]
    else d.accepted

def run (c : Config) (turns : List (ι × ℕ)) : Diary ι :=
  turns.foldl (fun d turn => d.turn c turn.1 turn.2) {}

theorem run_append (c : Config) (turns : List (ι × ℕ)) (turn : ι × ℕ) :
    run c (turns ++ [turn]) = (run c turns).turn c turn.1 turn.2 :=
  List.foldl_append

/-- A diary changes nothing in the office. -/
theorem toOffice_run (c : Config) (turns : List (ι × ℕ)) : (run c turns).toOffice = Office.run c turns := by
  induction turns using List.reverseRecOn with
  | nil => rfl
  | append_singleton turns turn ih =>
    rw [run_append, Office.run, List.foldl_append]
    exact congrArg (fun o : Office ι => o.turn c turn.1 turn.2) ih

/-- The diary agrees with the stamps: the time of the shared one is the latest that was accepted, and a caller that is
about to swap took a reading that makes up the time of its next stamp. -/
structure Kept (c : Config) (readings : List ℕ) (d : Diary ι) : Prop where
  taken : ∀ reading ∈ d.accepted, reading ∈ readings
  bounded : ∀ reading ∈ d.accepted, reading ≤ d.stamp.timestamp + c.epoch
  reached : d.issued = [] ∧ d.stamp.timestamp = 0 ∨ d.stamp.timestamp + c.epoch ∈ d.accepted
  swaps : ∀ caller begun seen next, d.call caller = some (begun, .swap seen next) →
    d.shown caller ∈ readings ∧ c.epoch ≤ d.shown caller ∧
      next.timestamp + c.epoch = max (seen.timestamp + c.epoch) (d.shown caller)

/-- Whoever is about to swap has taken its reading. -/
theorem shown_turn {other : ι} {begun : ℕ} {seen next : Stamp} (h : d.call other = some (begun, .swap seen next))
    (caller : ι) (reading : ℕ) : (d.turn c caller reading).shown other = d.shown other := by
  refine if_neg ?_
  rintro ⟨rfl, hreads⟩
  rw [h] at hreads
  cases hreads

omit [DecidableEq ι] in
theorem Kept.start (c : Config) (readings : List ℕ) : ({} : Diary ι).Kept c readings where
  taken _ h := absurd h List.not_mem_nil
  bounded _ h := absurd h List.not_mem_nil
  reached := .inl ⟨rfl, rfl⟩
  swaps _ _ _ _ := nofun

omit [DecidableEq ι] in
/-- A swap takes over the later one of the last time and the reading before it. -/
theorem Kept.swapped {readings : List ℕ} (h : d.Kept c readings) {caller : ι} {begun : ℕ} {next : Stamp}
    (hcall : d.call caller = some (begun, .swap d.stamp next)) :
    (∀ reading ∈ d.accepted ++ [d.shown caller], reading ∈ readings ∧ reading ≤ next.timestamp + c.epoch) ∧
      next.timestamp + c.epoch ∈ d.accepted ++ [d.shown caller] := by
  obtain ⟨htaken, hepoch, hmax⟩ := h.swaps caller begun _ next hcall
  refine ⟨fun reading hreading => ?_, ?_⟩
  · rcases List.mem_append.1 hreading with hold | hnew
    · have hle := h.bounded reading hold
      exact ⟨h.taken reading hold, by omega⟩
    · obtain rfl := List.mem_singleton.1 hnew
      exact ⟨htaken, by omega⟩
  · rcases Nat.le_total (d.stamp.timestamp + c.epoch) (d.shown caller) with hle | hle
    · rw [hmax, Nat.max_eq_right hle]
      exact List.mem_append_right _ (List.mem_singleton_self _)
    · rw [hmax, Nat.max_eq_left hle]
      rcases h.reached with ⟨-, hzero⟩ | hmem
      · -- no id is issued yet: the reading is the epoch itself
        have hshown : d.stamp.timestamp + c.epoch = d.shown caller := by omega
        rw [hshown]
        exact List.mem_append_right _ (List.mem_singleton_self _)
      · exact List.mem_append_left _ hmem

theorem Kept.turn {readings : List ℕ} (h : d.Kept c readings) (caller : ι) {reading : ℕ}
    (hreading : reading ∈ readings) : (d.turn c caller reading).Kept c readings := by
  have hturned := Office.turned_turn c d.toOffice caller reading
  have hswaps {other : ι} {begun : ℕ} {seen next : Stamp} (hold : d.call other = some (begun, .swap seen next)) :
      (d.turn c caller reading).shown other ∈ readings ∧ c.epoch ≤ (d.turn c caller reading).shown other ∧
        next.timestamp + c.epoch = max (seen.timestamp + c.epoch) ((d.turn c caller reading).shown other) := by
    rw [shown_turn hold]
    exact h.swaps other begun seen next hold
  rw [Diary.turn] at hswaps ⊢
  generalize d.toOffice.turn c caller reading = o at hturned hswaps ⊢
  cases hturned with
  | moved place hplace =>
    rw [if_neg (Nat.lt_irrefl _)]
    refine ⟨h.taken, h.bounded, h.reached, fun other begun seen next hcall => ?_⟩
    rcases Office.call_of_update hcall with ⟨rfl, hhere⟩ | hold
    · obtain ⟨⟨stage, hstage, hreads⟩, hepoch, hmax⟩ := hplace begun seen next hhere
      have hany : (d.call other).any (fun place => place.2.readsClock) = true := by
        rw [hstage]
        exact hreads
      dsimp only
      rw [if_pos ⟨rfl, hany⟩]
      exact ⟨hreading, hepoch, hmax⟩
    · exact hswaps hold
  | swapped begun next hcall =>
    obtain ⟨haccepted, hreached⟩ := h.swapped hcall
    rw [if_pos (by simp)]
    refine ⟨fun r hr => (haccepted r hr).1, fun r hr => (haccepted r hr).2, .inr hreached, ?_⟩
    intro other begun' seen' next' hother
    rcases Office.call_of_update hother with ⟨-, hhere⟩ | hold
    · cases hhere
    · exact hswaps hold

theorem kept_run (c : Config) (turns : List (ι × ℕ)) : (run c turns).Kept c (turns.map Prod.snd) := by
  suffices ∀ rest : List (ι × ℕ), ∀ d : Diary ι, d.Kept c (turns.map Prod.snd) → (∀ turn ∈ rest, turn ∈ turns) →
      (rest.foldl (fun d turn => d.turn c turn.1 turn.2) d).Kept c (turns.map Prod.snd) from
    this turns {} (.start c _) fun _ h => h
  intro rest
  induction rest with
  | nil => exact fun d h _ => h
  | cons turn rest ih =>
    intro d h hturns
    obtain ⟨hturn, hrest⟩ := List.forall_mem_cons.1 hturns
    exact ih _ (h.turn turn.1 (List.mem_map_of_mem hturn)) hrest

end Diary

/-! ### Ids -/

namespace Office

variable {ι : Type} [DecidableEq ι] {c : Config}

/-- The readings that the ids of a run were issued on, in the order of the ids. -/
def accepted (c : Config) (turns : List (ι × ℕ)) : List ℕ := (Diary.run c turns).accepted

theorem run_concat (c : Config) (turns : List (ι × ℕ)) (turn : ι × ℕ) :
    run c (turns ++ [turn]) = (run c turns).turn c turn.1 turn.2 :=
  List.foldl_append

/-- Every id was issued at some turn, and is that of the stamp after it. -/
theorem exists_turn_of_mem_issued {turns : List (ι × ℕ)} {issue : Issue ι} (h : issue ∈ (run c turns).issued) :
    ∃ before turn after, turns = before ++ turn :: after ∧
      (run c (before ++ [turn])).issued = (run c before).issued ++ [issue] ∧
      issue.id = (run c (before ++ [turn])).stamp.id c := by
  induction turns using List.reverseRecOn with
  | nil => exact absurd h List.not_mem_nil
  | append_singleton turns turn ih =>
    have hold (hmem : issue ∈ (run c turns).issued) : ∃ before turn' after, turns ++ [turn] = before ++ turn' :: after ∧
        (run c (before ++ [turn'])).issued = (run c before).issued ++ [issue] ∧
        issue.id = (run c (before ++ [turn'])).stamp.id c := by
      obtain ⟨before, turn', after, rfl, hrest⟩ := ih hmem
      exact ⟨before, turn', after ++ [turn], by simp, hrest⟩
    have hturned := turned_turn c (run c turns) turn.1 turn.2
    have hconcat := run_concat c turns turn
    rw [hconcat] at h
    generalize (run c turns).turn c turn.1 turn.2 = o at h hturned hconcat
    cases hturned with
    | moved place hplace => exact hold h
    | swapped begun next hcall =>
      rcases List.mem_append.1 h with hmem | hnew
      · exact hold hmem
      · obtain rfl := List.mem_singleton.1 hnew
        exact ⟨turns, turn, [], rfl, by rw [hconcat], by rw [hconcat]⟩

/-- The shared stamp once an id is issued: its time is the latest reading that was accepted. -/
theorem latest_accepted (turns : List (ι × ℕ)) (h : (run c turns).issued ≠ []) :
    (run c turns).stamp.timestamp + c.epoch ∈ accepted c turns ∧
      (∀ reading ∈ accepted c turns, reading ≤ (run c turns).stamp.timestamp + c.epoch) ∧
      ∀ reading ∈ accepted c turns, reading ∈ turns.map Prod.snd := by
  have hkept := Diary.kept_run c turns
  rw [← Diary.toOffice_run] at h ⊢
  exact ⟨hkept.reached.resolve_left fun hnone => h hnone.1, hkept.bounded, hkept.taken⟩

/-- Ids tell what they were made of. Each is decoded into the node and into the stamp, as its word has it, that the swap
left which issued it; its time on the clock is the latest of the readings that ids were issued on so far, which 64 bits
hold. What is decoded from a number of 63 bits makes up that number. So generators of different nodes never issue the
same id. -/
theorem issued_decoded (c : Config) (hnode : c.node ≤ 1023) (turns : List (ι × ℕ))
    (hclock : ∀ turn ∈ turns, turn.2 < 1 <<< 64) :
    (∀ issue ∈ (run c turns).issued, ∃ before turn after, turns = before ++ turn :: after ∧
      let o := run c (before ++ [turn])
      let parts := decode issue.id
      o.issued = (run c before).issued ++ [issue] ∧ parts.node = c.node ∧
      parts.timestamp = o.stamp.word >>> sequenceBits ∧ parts.sequence = o.stamp.word &&& lastSequence ∧
      ∃ millis, parts.unixMillis? c.epoch = some millis ∧ millis ∈ accepted c (before ++ [turn]) ∧
        (∀ reading ∈ accepted c (before ++ [turn]), reading ≤ millis) ∧
        millis ∈ (before ++ [turn]).map Prod.snd) ∧
    (∀ id : Int, 0 ≤ id → id < 1 <<< 63 → (decode id).Fits ∧ (decode id).id = id ∧
      (((decode id).timestamp <<< (nodeBits + sequenceBits) ||| (decode id).node <<< sequenceBits |||
        (decode id).sequence : ℕ) : Int) = id) ∧
    ∀ c' : Config, c'.node ≤ 1023 → c'.node ≠ c.node → ∀ turns' : List (ι × ℕ), ∀ issue ∈ (run c turns).issued,
      ∀ issue' ∈ (run c' turns').issued, issue.id ≠ issue'.id := by
  refine ⟨fun issue hissue => ?_, fun id hid hlt => ?_, ?_⟩
  · obtain ⟨before, turn, after, rfl, hissued, hid⟩ := exists_turn_of_mem_issued hissue
    have hfits := (run_sound c (before ++ [turn])).fits
    have hdecode : decode issue.id = _ := hid ▸ Stamp.decode_id hnode hfits
    obtain ⟨hmem, hbounded, htaken⟩ := latest_accepted (c := c) (before ++ [turn]) (by simp [hissued])
    have hlt : (run c (before ++ [turn])).stamp.timestamp + c.epoch < 1 <<< 64 := by
      obtain ⟨other, hother, hshown⟩ := List.mem_map.1 (htaken _ hmem)
      rw [← hshown]
      refine hclock other ?_
      rw [List.append_cons]
      exact List.mem_append_left _ hother
    refine ⟨before, turn, after, rfl, hissued, ?_, ?_, ?_, _, ?_, hmem, hbounded, htaken _ hmem⟩
    · rw [hdecode]
    · rw [hdecode, Stamp.word_shiftRight hfits]
    · rw [hdecode, Stamp.word_and hfits]
    · rw [hdecode, Parts.unixMillis?, Nat.add_comm c.epoch]
      exact if_pos hlt
  · have hfits := fits_decode hid hlt
    have hid := id_decode hid hlt
    exact ⟨hfits, hid, (Parts.id_eq_or hfits).symm.trans hid⟩
  · intro c' hnode' hne turns' issue hissue issue' hissue' hsame
    obtain ⟨s, -, -, -, hdecode⟩ := (run_sound c turns).exists_stamp hnode hissue
    obtain ⟨s', -, -, -, hdecode'⟩ := (run_sound c' turns').exists_stamp hnode' hissue'
    rw [hsame, hdecode'] at hdecode
    exact hne (congrArg Parts.node hdecode)

theorem race_decoded :
    (∀ turn ∈ race, turn.2 < 1 <<< 64) ∧ accepted { node := 7 } race = [defaultEpoch + 5, defaultEpoch + 2] ∧
    (∀ issue ∈ (run { node := 7 } race).issued, ∃ before turn after, race = before ++ turn :: after ∧
      ∃ millis, (decode issue.id).unixMillis? defaultEpoch = some millis ∧
        millis ∈ accepted { node := 7 } (before ++ [turn])) ∧
    ∀ issue ∈ (run { node := 7 } race).issued, ∀ issue' ∈ (run { node := 8 } race).issued, issue.id ≠ issue'.id := by
  have hclock : ∀ turn ∈ race, turn.2 < 1 <<< 64 := by decide
  obtain ⟨hissued, -, hapart⟩ := issued_decoded { node := 7 } (by decide) race hclock
  refine ⟨hclock, by decide, fun issue hissue => ?_, hapart { node := 8 } (by decide) (by decide) race⟩
  obtain ⟨before, turn, after, hturns, -, -, -, -, millis, hmillis, hmem, -⟩ := hissued issue hissue
  exact ⟨before, turn, after, hturns, millis, hmillis, hmem⟩

end Office

end Outbox.Snowflake
