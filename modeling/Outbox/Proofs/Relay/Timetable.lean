import Mathlib.Order.Basic
import Outbox.Proofs.Count
import Outbox.Proofs.Relay.Endurance
import Outbox.Proofs.Relay.Fates
import Outbox.Proofs.Relay.Scripted

/-! When the parcels of a batch are on their way. The flights of a chunk start together, and those of the next chunk
start when the last of them is over. So no two chunks are on their way at once, and a batch takes as long as the longest
flights of its chunks one after the other. -/

namespace Outbox

theorem Span.timerMillis_ofMillis (n : ℕ) : (Span.ofMillis n).timerMillis = n := by
  change (n * 1000000 + 999999) / 1000000 = n
  omega

namespace Simulation

open Relay (Action Parcel Program ruling)

/-! ### Flights -/

namespace Flight

/-- The flight left at a time under a limit. -/
def LeftAt (limit : Span) (time : ℕ) (f : Flight) : Prop := f = .depart f.parcel f.rule time limit f.measured

/-- A flight is on its way from its start on, and no more at its end. -/
def isAloft (time : ℕ) (f : Flight) : Bool := decide (f.start ≤ time) && decide (time < f.finish)

section

variable {f : Flight} {limit : Span} {time : ℕ}

theorem LeftAt.start_eq (h : f.LeftAt limit time) : f.start = time := congrArg Flight.start h

theorem LeftAt.finish_eq (h : f.LeftAt limit time) : f.finish = time + min f.rule.delay limit.timerMillis :=
  congrArg Flight.finish h

theorem LeftAt.inTime_iff (h : f.LeftAt limit time) : f.inTime ↔ f.rule.delay ≤ limit.timerMillis := by
  rw [congrArg Flight.inTime h]
  exact decide_eq_true_iff

theorem LeftAt.delivery_eq (h : f.LeftAt limit time) : f.delivery = ruling limit f.rule :=
  (congrArg Flight.delivery h).trans (delivery_depart _ _ _ _ _)

end

end Flight

/-- How long flights that start together take under a limit until the last of them is over. -/
def duration (limit : Span) (group : List Flight) : ℕ :=
  (group.map fun f => min f.rule.delay limit.timerMillis).foldr max 0

theorem duration_le_iff {limit : Span} {group : List Flight} {n : ℕ} :
    duration limit group ≤ n ↔ ∀ f ∈ group, min f.rule.delay limit.timerMillis ≤ n := by
  induction group with
  | nil => exact iff_of_true (Nat.zero_le n) (List.forall_mem_nil _)
  | cons f rest ih =>
    rw [List.forall_mem_cons, ← ih]
    exact Nat.max_le

/-! ### Groups -/

/-- Groups of flights from a time to another: those of a group start together, and the next group starts when the last
of them is over. -/
inductive Consecutive (limit : Span) : ℕ → List (List Flight) → ℕ → Prop
  | nil (time : ℕ) : Consecutive limit time [] time
  | cons {time finish : ℕ} {group : List Flight} {later : List (List Flight)}
    (hgroup : ∀ f ∈ group, f.LeftAt limit time)
    (hlater : Consecutive limit (time + duration limit group) later finish) :
    Consecutive limit time (group :: later) finish

/-- Every flight of the first group is over when one of the second starts. -/
def Precedes (earlier later : List Flight) : Prop := ∀ f ∈ earlier, ∀ g ∈ later, f.finish ≤ g.start

section

variable {limit : Span} {time middle finish : ℕ} {groups others : List (List Flight)}

theorem Consecutive.append (h : Consecutive limit time groups middle) (h' : Consecutive limit middle others finish) :
    Consecutive limit time (groups ++ others) finish := by
  induction h with
  | nil => exact h'
  | cons hgroup _ ih => exact .cons hgroup (ih h')

theorem Consecutive.finish_eq (h : Consecutive limit time groups finish) :
    finish = time + (groups.map (duration limit)).foldr (· + ·) 0 := by
  induction h with
  | nil => rfl
  | cons hgroup _ ih => rw [ih, List.map_cons, List.foldr_cons, Nat.add_assoc]

theorem Consecutive.finish_le (h : Consecutive limit time groups finish) :
    finish ≤ time + groups.length * limit.timerMillis := by
  induction h with
  | nil => exact Nat.le_add_right _ _
  | @cons time finish group later hgroup hlater ih =>
    have hgroup : duration limit group ≤ limit.timerMillis := duration_le_iff.2 fun f _ => Nat.min_le_right _ _
    rw [List.length_cons, Nat.succ_mul]
    omega

theorem Consecutive.exists_leftAt (h : Consecutive limit time groups finish) {f : Flight} (hf : f ∈ groups.flatten) :
    ∃ start, time ≤ start ∧ f.LeftAt limit start := by
  induction h with
  | nil => cases hf
  | @cons time finish group later hgroup hlater ih =>
    rw [List.flatten_cons, List.mem_append] at hf
    rcases hf with hf | hf
    · exact ⟨time, Nat.le_refl _, hgroup f hf⟩
    · obtain ⟨start, hstart, hleft⟩ := ih hf
      exact ⟨start, Nat.le_trans (Nat.le_add_right _ _) hstart, hleft⟩

theorem Consecutive.pairwise (h : Consecutive limit time groups finish) : groups.Pairwise Precedes := by
  induction h with
  | nil => exact .nil
  | @cons time finish group later hgroup hlater ih =>
    refine .cons (fun other hother f hf g hg => ?_) ih
    obtain ⟨start, hstart, hleft⟩ := hlater.exists_leftAt (List.mem_flatten.2 ⟨other, hother, hg⟩)
    have hlast : min f.rule.delay limit.timerMillis ≤ duration limit group := duration_le_iff.1 (Nat.le_refl _) f hf
    rw [(hgroup f hf).finish_eq, hleft.start_eq]
    omega

/-- Flights of groups that precede one another are never on their way at once. -/
theorem countP_isAloft_le (h : groups.Pairwise Precedes) {size : ℕ} (hsize : ∀ group ∈ groups, group.length ≤ size)
    (time : ℕ) : groups.flatten.countP (Flight.isAloft time) ≤ size := by
  induction h with
  | nil => exact Nat.zero_le size
  | @cons group later hfirst _ ih =>
    obtain ⟨hgroup, hlater⟩ := List.forall_mem_cons.1 hsize
    rw [List.flatten_cons, List.countP_append]
    by_cases hnone : group.countP (Flight.isAloft time) = 0
    · rw [hnone, Nat.zero_add]
      exact ih hlater
    · -- A flight of the first group is still on its way, so none of the others has started.
      obtain ⟨f, hf, haloft⟩ := List.countP_pos_iff.1 (Nat.pos_of_ne_zero hnone)
      rw [Flight.isAloft, Bool.and_eq_true, decide_eq_true_iff, decide_eq_true_iff] at haloft
      have hwaiting : later.flatten.countP (Flight.isAloft time) = 0 := by
        refine List.countP_eq_zero.2 fun g hg => ?_
        obtain ⟨other, hother, hg⟩ := List.mem_flatten.1 hg
        have hstart := hfirst other hother f hf g hg
        rw [Flight.isAloft, Bool.and_eq_true, decide_eq_true_iff]
        omega
      rw [hwaiting, Nat.add_zero]
      exact Nat.le_trans List.countP_le_length hgroup

end

/-! ### Scripts -/

theorem chooseRules_append (rules : List Rule) (a b : List Parcel) :
    chooseRules rules (a ++ b) = chooseRules rules a ++ chooseRules (rulesAfter rules a) b := by
  induction a generalizing rules with
  | nil => rfl
  | cons parcel rest ih =>
    rw [List.cons_append, chooseRules, ih, chooseRules, rulesAfter, rulesAfter, List.foldl_cons, List.cons_append]

/-- The rule is for one parcel, whichever it is. -/
def Rule.IsSingle (rule : Rule) : Prop := rule.uses = some 1 ∧ rule.topic = none ∧ rule.key = none

theorem chooseRule_of_spent {spent : List Rule} (hspent : ∀ rule ∈ spent, rule.uses = some 0) {rule : Rule}
    (hrule : rule.IsSingle) (rest : List Rule) (parcel : Parcel) :
    chooseRule parcel (spent ++ rule :: rest) = (rule, spent ++ rule.used :: rest) := by
  induction spent with
  | nil =>
    rw [List.nil_append, chooseRule, Rule.covers, hrule.1, hrule.2.1, hrule.2.2]
    rfl
  | cons old others ih =>
    obtain ⟨hold, hothers⟩ := List.forall_mem_cons.1 hspent
    rw [List.cons_append, chooseRule, ih hothers, Rule.covers, hold]
    rfl

theorem chooseRules_of_spent {spent rules : List Rule} (hspent : ∀ rule ∈ spent, rule.uses = some 0)
    (h : ∀ rule ∈ rules, rule.IsSingle) {parcels : List Parcel} (hlength : parcels.length = rules.length) :
    chooseRules (spent ++ rules) parcels = rules := by
  induction rules generalizing spent parcels with
  | nil =>
    obtain rfl := List.length_eq_zero_iff.1 hlength
    rfl
  | cons rule rest ih =>
    obtain ⟨hrule, hrest⟩ := List.forall_mem_cons.1 h
    cases parcels with
    | nil => cases hlength
    | cons parcel parcels =>
      have hused : rule.used.uses = some 0 := congrArg (Option.map (· - 1)) hrule.1
      have hnext := ih (List.forall_mem_append.2 ⟨hspent, List.forall_mem_singleton.2 hused⟩) hrest
        (Nat.succ.inj hlength)
      rw [List.append_assoc, List.singleton_append] at hnext
      rw [chooseRules, chooseRule_of_spent hspent hrule, hnext]

/-- Rules of which each is for one parcel are used one after the other. -/
theorem chooseRules_of_single {rules : List Rule} (h : ∀ rule ∈ rules, rule.IsSingle) {parcels : List Parcel}
    (hlength : parcels.length = rules.length) : chooseRules rules parcels = rules :=
  chooseRules_of_spent (List.forall_mem_nil _) h hlength

namespace World

variable {σ α β : Type} {b : Backend σ} {w : World σ}

/-! ### Deliveries -/

theorem depart_spec (w : World σ) (measured : Bool) (limit : Span) (parcels : List Parcel) :
    (w.depart measured limit parcels).1.map Flight.parcel = parcels ∧
      (w.depart measured limit parcels).1.map Flight.rule = chooseRules w.rules parcels ∧
      ∀ f ∈ (w.depart measured limit parcels).1, f.LeftAt limit w.elapsed := by
  induction parcels generalizing w with
  | nil => exact ⟨rfl, rfl, List.forall_mem_nil _⟩
  | cons parcel rest ih =>
    obtain ⟨hparcels, hrules, hleft⟩ := ih { w with rules := (chooseRule parcel w.rules).2 }
    exact ⟨congrArg (parcel :: ·) hparcels, congrArg ((chooseRule parcel w.rules).1 :: ·) hrules,
      List.forall_mem_cons.2 ⟨rfl, hleft⟩⟩

theorem elapsed_landAll_le_iff {bound : ℕ} {flights : List Flight} :
    (w.landAll b flights).elapsed ≤ bound ↔ w.elapsed ≤ bound ∧ ∀ f ∈ flights, f.finish ≤ bound := by
  induction flights generalizing w with
  | nil => exact (and_iff_left (List.forall_mem_nil _)).symm
  | cons f rest ih =>
    rw [List.forall_mem_cons, ← and_assoc, ← Nat.max_le, ← elapsed_land]
    exact ih

/-- The world after flights that started together is later by the time that they take. -/
theorem elapsed_landAll_inOrder {limit : Span} {group : List Flight} (h : ∀ f ∈ group, f.LeftAt limit w.elapsed) :
    (w.landAll b (inOrder group)).elapsed = w.elapsed + duration limit group := by
  refine eq_of_forall_ge_iff fun bound => ?_
  rw [elapsed_landAll_le_iff]
  constructor
  · rintro ⟨hw, hbound⟩
    have hgroup : duration limit group ≤ bound - w.elapsed := duration_le_iff.2 fun f hf => by
      have hfinish := hbound f (List.mem_mergeSort.2 hf)
      rw [(h f hf).finish_eq] at hfinish
      omega
    omega
  · intro hbound
    refine ⟨Nat.le_trans (Nat.le_add_right _ _) hbound, fun f hf => ?_⟩
    have hf := List.mem_mergeSort.1 hf
    rw [(h f hf).finish_eq]
    exact Nat.le_trans (Nat.add_le_add_left (duration_le_iff.1 (Nat.le_refl _) f hf) _) hbound

/-! ### Programs -/

/-- The flights that start at an action. -/
def departures (w : World σ) : Action → List (List Flight)
  | .deliver measured limit parcels => [(w.depart measured limit parcels).1]
  | _ => []

/-- The flights of a program in order, those together that start at one action. -/
def flights (b : Backend σ) : Program α → World σ → List (List Flight)
  | .done _, _ => []
  | .act action next, w => w.departures action ++ flights b (next (w.respond b action).1) (w.respond b action).2

theorem complete_bind (x : Program α) (f : α → Program β) (w : World σ) :
    w.complete b (x >>= f) = (w.complete b x).2.complete b (f (w.complete b x).1) := by
  induction x generalizing w with
  | done a => rfl
  | act action next ih =>
    rw [complete_respond, ← ih]
    exact complete_respond b w action fun answer => next answer >>= f

theorem flights_bind (x : Program α) (f : α → Program β) (w : World σ) :
    w.flights b (x >>= f) = w.flights b x ++ (w.complete b x).2.flights b (f (w.complete b x).1) := by
  induction x generalizing w with
  | done a => rfl
  | act action next ih =>
    rw [complete_respond, flights, List.append_assoc, ← ih]
    rfl

/-- Counting takes no time. -/
theorem complete_noteAll (b : Backend σ) (w : World σ) (ms : List Measurement) :
    (w.complete b (Program.noteAll ms)).2.elapsed = w.elapsed ∧
      (w.complete b (Program.noteAll ms)).2.rules = w.rules ∧ w.flights b (Program.noteAll ms) = [] := by
  induction ms generalizing w with
  | nil => exact ⟨rfl, rfl, rfl⟩
  | cons m rest ih => exact ih (w.record m)

end World

end Simulation

namespace Relay

open Simulation (Backend Consecutive Flight Rule World chooseRules chooseRules_append chooseRules_of_single
  countP_isAloft_le rulesAfter tableBackend)

/-! ### Batches -/

theorem Publisher.outcomes_append (p : Publisher) {results others : List (Row × Except Failure Parcel)}
    {deliveries rest : List Delivery} (h : deliveries.length = (results.filterMap parcelOf?).length) :
    p.outcomes (results ++ others) (deliveries ++ rest) = p.outcomes results deliveries ++ p.outcomes others rest := by
  fun_induction Publisher.outcomes p results deliveries with
  | case1 deliveries =>
    obtain rfl := List.length_eq_zero_iff.1 h
    rfl
  | case2 row failure results deliveries ih => exact congrArg (_ :: ·) (ih h)
  | case3 row parcel results delivery deliveries ih => exact congrArg (_ :: ·) (ih (Nat.succ.inj h))
  | case4 row parcel results ih => cases h

variable {σ : Type} {b : Backend σ} {w : World σ} {p : Publisher}

/-- The flights and the outcomes of rows that are delivered in chunks between one world and another. -/
structure Timetable (p : Publisher) (w : World σ) (chunks : List (List Row)) (groups : List (List Flight))
    (outcomes : List (Row × Option Failure)) (w' : World σ) : Prop where
  parcels : groups.map (List.map Flight.parcel) = chunks.map p.parcels
  rules : groups.flatten.map Flight.rule = chooseRules w.rules (p.parcels chunks.flatten)
  consecutive : Consecutive p.limit w.elapsed groups w'.elapsed
  outcomes : outcomes =
    p.outcomes (chunks.flatten.map fun row => (row, p.parcel row)) (groups.flatten.map Flight.delivery)
  remaining : w'.rules = rulesAfter w.rules (p.parcels chunks.flatten)

namespace Timetable

variable {chunks others : List (List Row)} {groups later : List (List Flight)}
  {outcomes rest : List (Row × Option Failure)} {w₁ w₂ : World σ}

theorem parcels_flatten (h : Timetable p w chunks groups outcomes w₁) :
    groups.flatten.map Flight.parcel = p.parcels chunks.flatten := by
  rw [List.map_flatten, h.parcels, Publisher.parcels, List.filterMap_flatten]
  rfl

theorem append (h : Timetable p w chunks groups outcomes w₁) (h' : Timetable p w₁ others later rest w₂) :
    Timetable p w (chunks ++ others) (groups ++ later) (outcomes ++ rest) w₂ where
  parcels := by rw [List.map_append, List.map_append, h.parcels, h'.parcels]
  rules := by
    rw [List.flatten_append, List.map_append, h.rules, h'.rules, h.remaining, ← chooseRules_append,
      ← Publisher.parcels_append, List.flatten_append]
  consecutive := h.consecutive.append h'.consecutive
  outcomes := by
    have hlength : (groups.flatten.map Flight.delivery).length =
        ((chunks.flatten.map fun row => (row, p.parcel row)).filterMap Publisher.parcelOf?).length := by
      rw [Publisher.filterMap_parcelOf?, ← h.parcels_flatten, List.length_map, List.length_map]
    rw [h.outcomes, h'.outcomes, List.flatten_append, List.flatten_append, List.map_append, List.map_append,
      p.outcomes_append hlength]
  remaining := by
    rw [h'.remaining, h.remaining, List.flatten_append, Publisher.parcels_append, rulesAfter, rulesAfter, rulesAfter,
      List.foldl_append]

theorem length_le (h : Timetable p w chunks groups outcomes w₁) {size : ℕ}
    (hsize : ∀ chunk ∈ chunks, chunk.length ≤ size) : ∀ group ∈ groups, group.length ≤ size := by
  intro group hgroup
  have hmem : group.map Flight.parcel ∈ chunks.map p.parcels := h.parcels ▸ List.mem_map_of_mem hgroup
  obtain ⟨chunk, hchunk, hparcels⟩ := List.mem_map.1 hmem
  calc group.length = (p.parcels chunk).length := by rw [hparcels, List.length_map]
    _ ≤ chunk.length := List.length_filterMap_le _ _
    _ ≤ size := hsize chunk hchunk

end Timetable

theorem deliver_timetable (p : Publisher) (b : Backend σ) (w : World σ) (rows : List Row) :
    let x : Program _ := do
      let deliveries ← Program.deliver p.measured p.limit (p.parcels rows)
      return p.outcomes (rows.map fun row => (row, p.parcel row)) deliveries
    Timetable p w [rows] (w.flights b x) (w.complete b x).1 (w.complete b x).2 := by
  intro x
  let group := (w.depart p.measured p.limit (p.parcels rows)).1
  let w₁ := (w.depart p.measured p.limit (p.parcels rows)).2
  have hflights : w.flights b x = [group] := rfl
  have hcomplete : w.complete b x = (p.outcomes (rows.map fun row => (row, p.parcel row)) (group.map Flight.delivery),
    w₁.landAll b (World.inOrder group)) := rfl
  obtain ⟨hparcels, hrules, hleft⟩ := w.depart_spec p.measured p.limit (p.parcels rows)
  have htime : w₁.elapsed = w.elapsed := (w.elapsed_depart _ _ _).1
  rw [hflights, hcomplete]
  refine ⟨?_, ?_, ?_, ?_, ?_⟩
  · rw [List.map_singleton, List.map_singleton, hparcels]
  · rw [List.flatten_singleton, List.flatten_singleton, hrules]
  · rw [World.elapsed_landAll_inOrder (htime ▸ hleft), htime]
    exact .cons hleft (.nil _)
  · rw [List.flatten_singleton, List.flatten_singleton]
  · rw [(World.landAll_keeps b w₁ _).1, (w.depart_keeps _ _ _).1, List.flatten_singleton]

theorem publishChunk_timetable (p : Publisher) (b : Backend σ) (w : World σ) (rows : List Row) :
    Timetable p w [rows] (w.flights b (p.publishChunk rows)) (w.complete b (p.publishChunk rows)).1
      (w.complete b (p.publishChunk rows)).2 := by
  obtain ⟨helapsed, hrules, hnone⟩ := World.complete_noteAll b w (p.unposted rows)
  have h := deliver_timetable p b (w.complete b (Program.noteAll (p.unposted rows))).2 rows
  rw [Publisher.publishChunk_eq, World.flights_bind, World.complete_bind, hnone, List.nil_append]
  exact ⟨h.parcels, hrules ▸ h.rules, helapsed ▸ h.consecutive, h.outcomes, hrules ▸ h.remaining⟩

theorem publishChunks_timetable (p : Publisher) (b : Backend σ) (w : World σ) (chunks : List (List Row)) :
    Timetable p w chunks (w.flights b (p.publishChunks chunks)) (w.complete b (p.publishChunks chunks)).1
      (w.complete b (p.publishChunks chunks)).2 := by
  induction chunks generalizing w with
  | nil => exact ⟨rfl, rfl, .nil _, rfl, rfl⟩
  | cons chunk rest ih =>
    rw [Publisher.publishChunks, World.flights_bind, World.complete_bind, World.flights_bind, World.complete_bind]
    have h := (publishChunk_timetable p b w chunk).append (ih (w.complete b (p.publishChunk chunk)).2)
    exact (List.append_nil _).symm ▸ h

theorem exists_timetable (p : Publisher) (b : Backend σ) (w : World σ) (rows : List Row) :
    ∃ outcomes, (w.complete b (p.process rows)).1 = .ofOutcomes outcomes ∧
      Timetable p w (chunks p.chunk rows) (w.flights b (p.process rows)) outcomes
        (w.complete b (p.process rows)).2 := by
  rw [Publisher.process, World.flights_bind, World.complete_bind]
  exact ⟨_, rfl, (List.append_nil _).symm ▸ publishChunks_timetable p b w _⟩

theorem length_le_of_mem_chunks {α : Type} {size : ℕ} {xs chunk : List α} (h : chunk ∈ chunks size xs) :
    chunk.length ≤ max size 1 := by
  fun_induction chunks size xs with
  | case1 => cases h
  | case2 x rest ih =>
    rcases List.mem_cons.1 h with rfl | h
    · exact List.length_take_le _ _
    · exact ih h

/-- A batch is bounded in flight and in time. Its flights are those of the parcels of its chunks, in groups one after
the other, and each has the rule that is its turn, which may be any if there is a rule for each. A flight takes the
delay of its rule, but no longer than the limit, and ends by itself just if the delay is within the limit; that is its
outcome in the batch. Every flight of a group is over when one of a later group starts, so that at no time more are on
their way than a chunk has rows. The batch takes as long as the longest flights of its groups together, which is at
most the limit for each chunk. A limit of whole milliseconds counts as it is, any other one as the next of these. -/
theorem process_timetable (p : Publisher) (b : Backend σ) (w : World σ) (rows : List Row) :
    let limit := p.limit.timerMillis
    let groups := w.flights b (p.process rows)
    let flights := groups.flatten
    let finished := w.complete b (p.process rows)
    (∀ millis, p.limit = .ofMillis millis → limit = millis) ∧
    groups.map (List.map Flight.parcel) = (chunks p.chunk rows).map p.parcels ∧
    flights.map Flight.rule = chooseRules w.rules (p.parcels rows) ∧
    ((∀ rule ∈ w.rules, rule.IsSingle) → (p.parcels rows).length = w.rules.length → flights.map Flight.rule = w.rules) ∧
    (∀ f ∈ flights, f.finish = f.start + min f.rule.delay limit ∧ (f.inTime ↔ f.rule.delay ≤ limit) ∧
      f.delivery = ruling p.limit f.rule) ∧
    finished.1 = .ofOutcomes (p.outcomes (rows.map fun row => (row, p.parcel row)) (flights.map Flight.delivery)) ∧
    Consecutive p.limit w.elapsed groups finished.2.elapsed ∧
    groups.Pairwise (fun earlier later => ∀ f ∈ earlier, ∀ g ∈ later, f.finish ≤ g.start) ∧
    (∀ group ∈ groups, group.length ≤ max p.chunk 1) ∧
    (∀ time, flights.countP (Flight.isAloft time) ≤ max p.chunk 1) ∧
    finished.2.elapsed = w.elapsed +
      (groups.map fun group => (group.map fun f => min f.rule.delay limit).foldr max 0).foldr (· + ·) 0 ∧
    finished.2.elapsed ≤ w.elapsed + (rows.length + max p.chunk 1 - 1) / max p.chunk 1 * limit := by
  intro limit groups flights finished
  obtain ⟨outcomes, hbatch, h⟩ := exists_timetable p b w rows
  have hsize := h.length_le fun _ => length_le_of_mem_chunks
  have hpairwise := h.consecutive.pairwise
  have hrules := h.rules
  rw [flatten_chunks] at hrules
  refine ⟨fun millis hlimit => ?_, h.parcels, hrules, fun hsingle hlength => ?_, fun f hf => ?_, ?_, h.consecutive,
    hpairwise, hsize, countP_isAloft_le hpairwise hsize, h.consecutive.finish_eq, ?_⟩
  · exact (congrArg Span.timerMillis hlimit).trans (Span.timerMillis_ofMillis millis)
  · exact hrules.trans (chooseRules_of_single hsingle hlength)
  · obtain ⟨start, -, hleft⟩ := h.consecutive.exists_leftAt hf
    rw [hleft.start_eq]
    exact ⟨hleft.finish_eq, hleft.inTime_iff, hleft.delivery_eq⟩
  · have houtcomes := h.outcomes
    rw [flatten_chunks] at houtcomes
    exact hbatch.trans (congrArg Batch.ofOutcomes houtcomes)
  · have hfinish := h.consecutive.finish_le
    have hlength : groups.length = (chunks p.chunk rows).length := by
      rw [← List.length_map (List.map Flight.parcel), h.parcels, List.length_map]
    rwa [hlength, length_chunks, Count.groups_eq (by omega)] at hfinish

/-- Five rows in chunks of two, the third without a parcel: the second delivery is cut off, and the last one ends just
in time. -/
theorem cut_off_timetable :
    let p : Publisher := { chunk := 2, limit := .ofMillis 10 }
    let w : World Table := {
      start := .epoch, contents := {}, rules := [3, 20, 5, 10].map fun delay => { uses := some 1, delay } }
    let rows := [carrying 1 [123, 125], carrying 2 [123, 125], carrying 3 [120], carrying 4 [123, 125],
      carrying 5 [123, 125]]
    let groups := w.flights tableBackend (p.process rows)
    let finished := w.complete tableBackend (p.process rows)
    groups.map (List.map fun f => f.rule.delay) = [[3, 20], [5], [10]] ∧
      (∀ time, groups.flatten.countP (Flight.isAloft time) ≤ 2) ∧ finished.1.delivered = [1, 4, 5] ∧
      finished.2.elapsed = 25 := by
  intro p w rows groups finished
  obtain ⟨-, hparcels, -, hrules, hends, hbatch, -, -, -, haloft, helapsed, -⟩ := process_timetable p tableBackend w rows
  have hsingle : ∀ rule ∈ w.rules, rule.IsSingle :=
    List.forall_mem_map.2 fun _ _ => ⟨rfl, rfl, rfl⟩
  have hrules := hrules hsingle (by decide +kernel)
  have hdelays : groups.map (List.map fun f => f.rule.delay) = [[3, 20], [5], [10]] := by
    refine List.eq_iff_flatten_eq.2 ⟨?_, ?_⟩
    · have h := congrArg (List.map Rule.delay) hrules
      rw [List.map_map] at h
      rw [← List.map_flatten]
      exact h.trans (by decide +kernel)
    · have h := congrArg (List.map List.length) hparcels
      simp only [List.map_map, Function.comp_def, List.length_map] at h ⊢
      exact h.trans (by decide +kernel)
  have hdeliveries : groups.flatten.map Flight.delivery = [.delivered, .timedOut, .delivered, .delivered] := by
    rw [List.map_congr_left fun f hf => (hends f hf).2.2, ← Function.comp_def, ← List.map_map, hrules]
    decide +kernel
  refine ⟨hdelays, haloft, ?_, ?_⟩
  · refine (congrArg Batch.delivered hbatch).trans ?_
    rw [hdeliveries]
    decide +kernel
  · refine helapsed.trans ?_
    have hdurations : groups.map (fun group => (group.map fun f => min f.rule.delay p.limit.timerMillis).foldr max 0) =
        (groups.map (List.map fun f => f.rule.delay)).map fun delays =>
          (delays.map fun delay => min delay p.limit.timerMillis).foldr max 0 := by
      simp only [List.map_map, Function.comp_def]
    rw [hdurations, hdelays]
    decide +kernel

end Relay

end Outbox
