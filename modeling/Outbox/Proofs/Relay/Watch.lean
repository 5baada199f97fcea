import Mathlib.Data.Fintype.Defs
import Outbox.Proofs.Relay.Chronicle

/-! Fleets under one clock. Calls take no time: time passes only while every relay that is at work waits for a
delivery, and no further than the limit of each such delivery, at which it is cut off. Relays that have patience for
less than the common threshold then never claim each other's rows: as long as a relay is at work, the rows that it
holds stand in the table as it claimed them, and their claim is not old enough. -/

namespace Outbox.Relay

open Simulation (Ending Flight)

/-- A fleet with the time, in nanoseconds since the start. -/
structure Watch (ι : Type) extends Chronicle ι where
  /-- What the clock showed at the start. -/
  start : Instant
  time : Nat := 0
  /-- When a relay started its job. -/
  begun : ι → Nat := fun _ => 0
  /-- When a relay last did something of its own. -/
  since : ι → Nat := fun _ => 0

namespace Watch

/-- Nanoseconds in so many milliseconds. -/
def nanos (millis : Nat) : Nat := millis * 1000000

inductive Move (ι : Type)
  | save (event : Event)
  | start (relay : ι) (stats : Stats)
  | proceed (relay : ι) (fault : Option StoreFault)
  /-- A delivery ends by itself. -/
  | land (relay : ι) (place : Nat) (ending : Ending)
  /-- A delivery is cut off. -/
  | cut (relay : ι) (place : Nat)
  | pass (nanos : Nat)

variable {ι : Type}

/-- What the clock shows at a time. -/
def clockAt (w : Watch ι) (time : Nat) : Instant := (Instant.ofNanos? (w.start.nanos + time)).getD .last

def clock (w : Watch ι) : Instant := w.clockAt w.time

/-- A relay that does nothing, or waits for a delivery whose limit is not over before a time. -/
def Sleeps (w : Watch ι) (time : Nat) (i : ι) : Bool :=
  match w.phase i with
  | .idle => true
  | .working _ => false
  | .waiting _ limit passages _ =>
    passages.any (fun passage => passage.flight.isNone) && decide (time ≤ w.since i + nanos limit.timerMillis)

variable [DecidableEq ι]

/-- What happens next; nothing if that cannot happen now. -/
def step [Fintype ι] (relays : ι → Relay) (w : Watch ι) : Move ι → Watch ι
  | .save event => { w with toChronicle := w.toChronicle.step relays (.save event) }
  | .start i stats =>
    match w.phase i with
    | .idle =>
      { w with
        toChronicle := w.toChronicle.step relays (.start i (.runTick stats))
        begun := Function.update w.begun i w.time }
    | _ => w
  | .proceed i fault =>
    let chance : Chance := { fault := fault, now := w.clock, elapsed := w.time / 1000000 }
    match w.phase i with
    | .working _ =>
      { w with
        toChronicle := w.toChronicle.step relays (.proceed i chance), since := Function.update w.since i w.time }
    | _ => { w with toChronicle := w.toChronicle.step relays (.proceed i chance) }
  | .land i place ending =>
    let delay := (w.time - w.since i + 999999) / 1000000
    { w with toChronicle := w.toChronicle.step relays (.land i place (w.since i / 1000000) delay ending) }
  | .cut i place =>
    match w.phase i with
    | .waiting _ limit _ _ =>
      if w.time < w.since i + nanos limit.timerMillis then w
      else
        { w with
          toChronicle :=
            w.toChronicle.step relays (.land i place (w.since i / 1000000) (limit.timerMillis + 1) .accept) }
    | _ => w
  | .pass n => if ∀ i, w.Sleeps (w.time + n) i then { w with time := w.time + n } else w

/-- The fleet after moves one after the other, from an empty table and relays that do nothing. -/
def run [Fintype ι] (relays : ι → Relay) (start : Instant) (moves : List (Move ι)) : Watch ι :=
  moves.foldl (step relays) { start := start }

/-! ### Moves -/

/-- How the times of relays go on with a move. -/
structure Timed (w : Watch ι) (move : Relay.Move ι) (begun since : ι → Nat) : Prop where
  clock : ∀ i chance, move = .proceed i chance → chance.now = w.clock
  starts : ∀ i job, move = .start i job → (∃ stats, job = .runTick stats) ∧ begun i = w.time
  works : ∀ i, w.phase i ≠ .idle → begun i = w.begun i
  begins : ∀ i, begun i = w.begun i ∨ begun i = w.time
  proceeds : ∀ i chance rest, move = .proceed i chance → w.phase i = .working rest → since i = w.time
  waits : ∀ i measured limit passages next, w.phase i = .waiting measured limit passages next → since i = w.since i

/-- All that a move can do: time passes, or there is a turn of the chronicle. -/
inductive Advance (relays : ι → Relay) (w : Watch ι) : Watch ι → Prop
  | kept : Advance relays w w
  | passed (n : Nat) (h : ∀ i, w.Sleeps (w.time + n) i) : Advance relays w { w with time := w.time + n }
  | turned {move : Relay.Move ι} {c : Chronicle ι} {begun since : ι → Nat}
    (hturn : w.Turn relays move c) (htimed : w.Timed move begun since) :
    Advance relays w { w with toChronicle := c, begun := begun, since := since }

omit [DecidableEq ι] in
/-- A move by which no relay starts or does anything of its own. -/
theorem timed_still (w : Watch ι) {move : Relay.Move ι} (hstart : ∀ i job, move ≠ .start i job)
    (hproceed : ∀ i chance, move ≠ .proceed i chance) : w.Timed move w.begun w.since where
  clock i chance h := absurd h (hproceed i chance)
  starts i job h := absurd h (hstart i job)
  works _ _ := rfl
  begins _ := .inl rfl
  proceeds i chance _ h := absurd h (hproceed i chance)
  waits _ _ _ _ _ _ := rfl

theorem advance_step [Fintype ι] (relays : ι → Relay) (w : Watch ι) (move : Move ι) :
    Advance relays w (w.step relays move) := by
  cases move with
  | save event => exact .turned (Chronicle.turn_step relays _ _) (w.timed_still (fun _ _ => nofun) fun _ _ => nofun)
  | start i stats =>
    rw [step]
    split
    · next h =>
      refine .turned (Chronicle.turn_step relays _ _)
        ⟨fun _ _ => nofun, ?_, fun j hj => ?_, fun j => ?_, fun _ _ _ => nofun, ?_⟩
      · rintro _ _ ⟨⟩
        exact ⟨⟨stats, rfl⟩, Function.update_self _ _ _⟩
      · refine Function.update_of_ne ?_ _ _
        rintro rfl
        exact hj h
      · by_cases hj : j = i
        · subst hj
          exact .inr (Function.update_self _ _ _)
        · exact .inl (Function.update_of_ne hj _ _)
      · exact fun _ _ _ _ _ _ => rfl
    · exact .kept
  | proceed i fault =>
    rw [step]
    dsimp only
    split
    · next rest h =>
      refine .turned (Chronicle.turn_step relays _ _) ⟨?_, fun _ _ => nofun, fun _ _ => rfl, fun _ => .inl rfl, ?_, ?_⟩
      · rintro _ _ ⟨⟩
        rfl
      · rintro _ _ _ ⟨⟩ _
        exact Function.update_self _ _ _
      · intro j measured limit passages next hj
        refine Function.update_of_ne ?_ _ _
        rintro rfl
        cases h.symm.trans hj
    · next h =>
      refine .turned (Chronicle.turn_step relays _ _) ⟨?_, fun _ _ => nofun, fun _ _ => rfl, fun _ => .inl rfl,
        ?_, fun _ _ _ _ _ _ => rfl⟩
      · rintro _ _ ⟨⟩
        rfl
      · rintro _ _ rest ⟨⟩ hrest
        exact absurd hrest (h rest)
  | land i place ending =>
    exact .turned (Chronicle.turn_step relays _ _) (w.timed_still (fun _ _ => nofun) fun _ _ => nofun)
  | cut i place =>
    rw [step]
    split
    · split
      · exact .kept
      · exact .turned (Chronicle.turn_step relays _ _) (w.timed_still (fun _ _ => nofun) fun _ _ => nofun)
    · exact .kept
  | pass n =>
    rw [step]
    split
    · next h => exact .passed n h
    · exact .kept

/-! ### Patience -/

section Punctual

variable {relay : Relay} {story : Story} {time begun since : Nat} {clock : Instant} {phase : Phase}

theorem nanos_add (a b : Nat) : nanos (a + b) = nanos a + nanos b := Nat.add_mul _ _ _

theorem nanos_le {a b : Nat} (h : a ≤ b) : nanos a ≤ nanos b := Nat.mul_le_mul_right _ h

/-- No more time has passed since a relay began than it has patience for. Right after it has read the clock, that is
what the clock shows. -/
def Punctual (relay : Relay) (time : Nat) (clock : Instant) (begun since : Nat) (story : Story) : Phase → Prop
  | .idle => True
  | .working _ =>
    story.patience ≤ relay.patience ∧ time ≤ begun + nanos story.patience ∧ ∀ t, story.Dates t → t = clock
  | .waiting _ limit _ _ => since ≤ begun + nanos story.patience ∧ time ≤ since + nanos limit.timerMillis

theorem Punctual.le (h : Punctual relay time clock begun since story phase)
    (hfollows : phase.Follows relay Story.Dates story) (hphase : phase ≠ .idle) :
    time ≤ begun + nanos relay.patience := by
  cases phase with
  | idle => exact absurd rfl hphase
  | working rest =>
    obtain ⟨hpatience, htime, -⟩ := h
    have := nanos_le hpatience
    omega
  | waiting measured limit passages next =>
    obtain ⟨hsince, htime⟩ := h
    have := nanos_le hfollows.1
    rw [nanos_add] at this
    omega

/-- An answer that takes no time leaves a relay punctual. -/
theorem Punctual.answered {action : Action} {next next' : action.Answer → Program Unit} {answer : action.Answer}
    (h : Punctual relay time clock begun since story (.working (.act action next)))
    (hfollows : Phase.Follows relay Story.Dates story (.working (.act action next)))
    (hprompt : Exchange.patience ⟨action, answer⟩ = 0)
    (hdates : ∀ t, (⟨action, answer⟩ : Exchange) = ⟨.now, t⟩ → t = clock) :
    Punctual relay time clock begun since (⟨action, answer⟩ :: story) (.working (next' answer)) := by
  obtain ⟨hpatience, htime, -⟩ := h
  refine ⟨hfollows.1.patience_le hpatience answer, ?_, fun t ht => hdates t (Option.some.inj ht)⟩
  rw [Story.patience, hprompt, Nat.zero_add]
  exact htime

end Punctual

variable {relays : ι → Relay} {w w' : Watch ι} {c : Chronicle ι} {begun since : ι → Nat} {stuck : Span}

theorem punctual_turn {move : Relay.Move ι} (hfollows : w.Follows relays Story.Dates)
    (h : ∀ i, Punctual (relays i) w.time w.clock (w.begun i) (w.since i) (w.story i) (w.phase i))
    (hturn : w.Turn relays move c) (htimed : w.Timed move begun since) (i : ι) :
    Punctual (relays i) w.time w.clock (begun i) (since i) (c.story i) (c.phase i) := by
  have hsame (j : ι) : Punctual (relays j) w.time w.clock (begun j) (since j) (w.story j) (w.phase j) := by
    have hj := h j
    cases hphase : w.phase j with
    | idle => trivial
    | working rest =>
      rw [hphase] at hj
      rwa [htimed.works j (by rw [hphase]; exact nofun)]
    | waiting measured limit passages next =>
      rw [hphase] at hj
      rwa [htimed.works j (by rw [hphase]; exact nofun), htimed.waits j measured limit passages next hphase]
  have hbecome {c : Chronicle ι} (hphase : c.phase = w.phase) (hstory : c.story = w.story) {j : ι} {phase : Phase}
      {story : Story} (hj : Punctual (relays j) w.time w.clock (begun j) (since j) story phase) :
      Punctual (relays i) w.time w.clock (begun i) (since i) ((c.become j phase story).story i)
        ((c.become j phase story).phase i) := by
    by_cases hi : i = j
    · subst hi
      rwa [Chronicle.phase_become, Chronicle.story_become]
    · rw [Chronicle.phase_become_of_ne hi, Chronicle.story_become_of_ne hi, hphase, hstory]
      exact hsame i
  cases hturn with
  | kept => exact hsame i
  | saved => exact hsame i
  | @started j job hphase =>
    refine hbecome rfl rfl ⟨Nat.zero_le _, ?_, fun _ => nofun⟩
    rw [(htimed.starts j job rfl).2]
    exact Nat.le_add_right _ _
  | @answered j chance action next answer table hphase hheard =>
    have hj := hsame j
    have hnow := hfollows j
    rw [hphase] at hj hnow
    refine hbecome rfl rfl ?_
    cases action with
    | now =>
      cases hheard
      refine hj.answered hnow rfl ?_
      rintro _ ⟨⟩
      exact htimed.clock j chance rfl
    | ask | elapsed | note => exact hj.answered hnow rfl fun _ => nofun
    | deliver => cases hheard
  | @departed j chance measured limit parcels next hphase =>
    have hj := hsame j
    rw [hphase] at hj
    refine hbecome rfl rfl ?_
    rw [Punctual, htimed.proceeds j chance _ rfl hphase]
    exact ⟨hj.2.1, Nat.le_add_right _ _⟩
  | @landed j place start delay ending measured limit passages next parcel hphase =>
    have hj := hsame j
    rw [hphase] at hj
    exact hbecome rfl rfl hj
  | @arrived j chance measured limit passages next deliveries hphase =>
    have hj := hsame j
    have hnow := hfollows j
    rw [hphase] at hj hnow
    obtain ⟨hsince, htime⟩ := hj
    refine hbecome rfl rfl ⟨?_, ?_, fun _ => nofun⟩
    · exact Nat.le_trans (Nat.le_of_eq (Nat.add_comm _ _)) hnow.1
    · rw [Story.patience, nanos_add]
      change w.time ≤ begun j + (nanos limit.timerMillis + nanos (w.story j).patience)
      omega
  | finished => exact hbecome rfl rfl trivial

/-! ### Rows -/

/-- A relay is at work and holds the row. -/
def Guards (c : Chronicle ι) (i : ι) (row : Row) : Prop := c.phase i ≠ .idle ∧ (c.story i).Holds row

/-- The rows that relays at work hold stand in the table as they were claimed at certain times, each by one relay. -/
structure Custody (c : Chronicle ι) (claimed : ι → Instant) : Prop where
  found : ∀ i row, Guards c i row →
    c.table.find? row.id = some row ∧ row.status = .sending ∧ row.updatedAt = claimed i
  alone : ∀ i j row row', Guards c i row → Guards c j row' → row.id = row'.id → i = j

variable {claimed claimed' : ι → Instant} {c' : Chronicle ι}

omit [DecidableEq ι] in
theorem Custody.sub (h : Custody c claimed) (hsub : ∀ i row, Guards c' i row →
    Guards c i row ∧ claimed' i = claimed i ∧ c'.table.find? row.id = c.table.find? row.id) : Custody c' claimed' where
  found i row hrow := by
    obtain ⟨hguards, hclaimed, htable⟩ := hsub i row hrow
    rw [hclaimed, htable]
    exact h.found i row hguards
  alone i j row row' hi hj := h.alone i j row row' (hsub i row hi).1 (hsub j row' hj).1

theorem guards_become {i j : ι} {row : Row} {phase : Phase} {story : Story} :
    Guards (c.become j phase story) i row ↔
      (i = j ∧ phase ≠ .idle ∧ story.Holds row) ∨ (i ≠ j ∧ Guards c i row) := by
  by_cases h : i = j
  · subst h
    simp [Guards]
  · rw [Guards, Chronicle.phase_become_of_ne h, Chronicle.story_become_of_ne h]
    simp [h, Guards]

/-- A turn after which a relay holds no more rows than before, and which changes none that is held. -/
theorem Custody.become {j : ι} {phase : Phase} {story : Story} {table : Table} {landed : List (ι × Flight)}
    (h : Custody c claimed) (hclaimed : ∀ i, c.phase i ≠ .idle → claimed' i = claimed i)
    (hstory : ∀ row, phase ≠ .idle → story.Holds row → Guards c j row ∧ table.find? row.id = c.table.find? row.id)
    (hothers : ∀ i row, i ≠ j → Guards c i row → table.find? row.id = c.table.find? row.id) :
    Custody (Chronicle.become { c with table := table, landed := landed } j phase story) claimed' := by
  refine h.sub fun i row hrow => ?_
  rcases guards_become.1 hrow with ⟨rfl, hphase, hholds⟩ | ⟨hi, hguards⟩
  · obtain ⟨hguards, htable⟩ := hstory row hphase hholds
    exact ⟨hguards, hclaimed i hguards.1, htable⟩
  · exact ⟨hguards, hclaimed i hguards.1, hothers i row hi hguards⟩

/-- A claim that returns no row that is held. -/
theorem Custody.claim {j : ι} {phase : Phase} {p : Partition} {limit : Nat} {now : Instant} {stuck : Span}
    {rows : List Row} {table : Table} (h : Custody c claimed)
    (hclaimed : ∀ i, c.phase i ≠ .idle → claimed' i = claimed i) (hnow : claimed' j = now)
    (hnone : ∀ row, ¬(c.story j).Holds row)
    (hfree : ∀ i row, Guards c i row → ¬c.table.Hands (.claim p limit now stuck) row.id)
    (hclaim : c.table.claim p limit now stuck = some (rows, table)) :
    Custody (Chronicle.become { c with table := table } j phase
      (⟨.ask (.claim p limit now stuck), .ok rows⟩ :: c.story j)) claimed' := by
  have hmine (row : Row) (hholds : Story.Holds (⟨.ask (.claim p limit now stuck), .ok rows⟩ :: c.story j) row) :
      row ∈ rows := by
    obtain ⟨hrow | hrow, -, hunmarked⟩ := Story.holds_cons.1 hholds
    · exact hrow
    · exact absurd ⟨hrow, hunmarked⟩ (hnone row)
  have hhands (row : Row) (hrow : row ∈ rows) : c.table.Hands (.claim p limit now stuck) row.id :=
    ⟨_, hclaim, row, hrow, rfl⟩
  refine ⟨fun i row hrow => ?_, fun i i' row row' hi hi' hid => ?_⟩
  · rcases guards_become.1 hrow with ⟨rfl, -, hholds⟩ | ⟨hi, hguards⟩
    · obtain ⟨before, -, -, hbefore, hfound⟩ := Table.find?_after_claim hclaim (hmine row hholds)
      rw [hnow]
      exact ⟨hfound, by rw [hbefore]; rfl, by rw [hbefore]; rfl⟩
    · obtain ⟨hfound, hrest⟩ := h.found i row hguards
      rw [hclaimed i hguards.1]
      refine ⟨(Table.find?_after_claim_of_notMem hclaim fun other hother hsame => ?_).trans hfound, hrest⟩
      exact hfree i row hguards (hsame ▸ hhands other hother)
  · rcases guards_become.1 hi with ⟨rfl, -, hholds⟩ | ⟨hne, hguards⟩ <;>
      rcases guards_become.1 hi' with ⟨rfl, -, hholds'⟩ | ⟨hne', hguards'⟩
    · rfl
    · exact absurd (hid ▸ hhands row (hmine row hholds)) (hfree i' row' hguards')
    · exact absurd (hid ▸ hhands row' (hmine row' hholds')) (hfree i row hguards)
    · exact h.alone i i' row row' hguards hguards' hid

/-- A mark of rows that a relay holds. -/
theorem Custody.mark {j : ι} {rest : Program Unit} {request : Request} (h : Custody c claimed)
    (hclaimed : ∀ i, c.phase i ≠ .idle → claimed' i = claimed i) (hphase : c.phase j ≠ .idle) (hmark : request.isMark)
    (hids : request.targets.Nodup) (hholds : ∀ id ∈ request.targets, ∃ row, (c.story j).Holds row ∧ row.id = id) :
    Custody (Chronicle.become { c with table := c.table.after request } j (.working rest)
      (⟨.ask request, (c.table.answer request).1⟩ :: c.story j)) claimed' := by
  obtain ⟨a, ha, -⟩ := Table.tally_answer hmark hids c.table
  have hnone : Exchange.claimed ⟨.ask request, .ok a⟩ = [] := by
    cases request with
    | claim => cases hmark
    | save | markPublished | markFailed | markDead | counts => rfl
  rw [ha]
  refine h.become hclaimed (fun row _ hrow => ?_) fun i row hi hguards => ?_
  · obtain ⟨hrow, hunmarked⟩ := hrow.of_cons hnone
    exact ⟨⟨hphase, hrow⟩, Table.find?_after_mark_of_notMem hmark hunmarked⟩
  · refine Table.find?_after_mark_of_notMem hmark fun hid => ?_
    obtain ⟨other, hother, hsame⟩ := hholds row.id hid
    exact hi (h.alone i j row other hguards ⟨hphase, hother⟩ hsame.symm)

/-- An answer that neither claims nor changes the table. -/
theorem Custody.told {j : ι} {phase : Phase} {exchange : Exchange} {landed : List (ι × Flight)} (h : Custody c claimed)
    (hclaimed : ∀ i, c.phase i ≠ .idle → claimed' i = claimed i) (hphase : c.phase j ≠ .idle)
    (hnone : exchange.claimed = []) :
    Custody (Chronicle.become { c with landed := landed } j phase (exchange :: c.story j)) claimed' :=
  h.become hclaimed (fun _ _ hrow => ⟨⟨hphase, (hrow.of_cons hnone).1⟩, rfl⟩) fun _ _ _ _ => rfl

theorem Custody.turn {move : Relay.Move ι} (hfollows : c.Follows relays Story.Dates) (h : Custody c claimed)
    (hturn : c.Turn relays move c') (hclaimed : ∀ i, c.phase i ≠ .idle → claimed' i = claimed i)
    (hclaim : ∀ j p limit now stuck next, c.phase j = .working (.act (.ask (.claim p limit now stuck)) next) →
      claimed' j = now ∧ (∀ row, ¬(c.story j).Holds row) ∧
        ∀ i row, Guards c i row → ¬c.table.Hands (.claim p limit now stuck) row.id) :
    Custody c' claimed' := by
  have hworks {j : ι} {phase : Phase} (hphase : c.phase j = phase) (hne : phase ≠ .idle) : c.phase j ≠ .idle :=
    fun hidle => hne (hphase.symm.trans hidle)
  cases hturn with
  | kept => exact h.sub fun i row hrow => ⟨hrow, hclaimed i hrow.1, rfl⟩
  | saved event =>
    refine h.sub fun i row hrow => ⟨hrow, hclaimed i hrow.1, ?_⟩
    obtain ⟨hfound, -⟩ := h.found i row hrow
    have hquiet : ¬c.table.Marks (.save event) row.id := fun hmarks => Bool.false_ne_true hmarks.1
    exact (Table.find?_after_of_quiet hfound id hquiet).trans hfound.symm
  | started hidle => exact h.become hclaimed (fun row _ hrow => absurd hrow.1 List.not_mem_nil) fun _ _ _ _ => rfl
  | @answered j chance action next answer table hphase hheard =>
    have hnow := hfollows j
    rw [hphase] at hnow
    have hj := hworks hphase (by simp)
    cases action with
    | now | elapsed | note => cases hheard; exact h.told hclaimed hj rfl
    | deliver => cases hheard
    | ask request =>
      cases hfault : chance.fault with
      | some fault =>
        simp only [Fleet.heard, hfault] at hheard
        cases hheard
        exact h.told hclaimed hj (by cases request <;> rfl)
      | none =>
        simp only [Fleet.heard, hfault] at hheard
        obtain ⟨rfl, rfl⟩ := Prod.ext_iff.1 (Option.some.inj hheard)
        cases request with
        | claim p limit now stuck =>
          obtain ⟨htime, hnone, hfree⟩ := hclaim j p limit now stuck next hphase
          cases hrows : c.table.claim p limit now stuck with
          | none =>
            rw [Table.answer_claim_none hrows]
            exact h.told hclaimed hj rfl
          | some answer =>
            obtain ⟨rows, table⟩ := answer
            rw [Table.answer_claim hrows]
            exact h.claim hclaimed htime hnone hfree hrows
        | counts => exact h.told hclaimed hj rfl
        | save => cases hnow.1.1
        | markPublished | markFailed | markDead => exact h.mark hclaimed hj hnow.1.1 hnow.1.2.1 hnow.1.2.2
  | @departed j chance measured limit parcels next hphase =>
    have hj := hworks hphase (by simp)
    exact h.become hclaimed (fun row _ hrow => ⟨⟨hj, hrow⟩, rfl⟩) fun _ _ _ _ => rfl
  | @landed j place start delay ending measured limit passages next parcel hphase =>
    have hj := hworks hphase (by simp)
    exact h.become hclaimed (fun row _ hrow => ⟨⟨hj, hrow⟩, rfl⟩) fun _ _ _ _ => rfl
  | @arrived j chance measured limit passages next deliveries hphase =>
    exact h.told hclaimed (hworks hphase (by simp)) rfl
  | finished => exact h.become hclaimed (fun row hidle _ => absurd rfl hidle) fun _ _ _ _ => rfl

/-! ### Order -/

/-- Relays of one threshold, which they have the patience to keep. -/
structure Allied (relays : ι → Relay) (stuck : Span) : Prop where
  same : ∀ i, (relays i).config.stuck = stuck
  exact : stuck.shift = stuck
  enough : ∀ i, nanos (relays i).patience < stuck.nanos

/-- The invariant of a fleet under one clock. -/
structure Orderly (relays : ι → Relay) (w : Watch ι) : Prop where
  follows : w.Follows relays Story.Dates
  begun : ∀ i, w.begun i ≤ w.time
  punctual : ∀ i, Punctual (relays i) w.time w.clock (w.begun i) (w.since i) (w.story i) (w.phase i)
  custody : Custody w.toChronicle fun i => w.clockAt (w.begun i)

omit [DecidableEq ι] in
theorem nanos_clockAt (w : Watch ι) (time : Nat) :
    (w.clockAt time).nanos = min (w.start.nanos + time) Calendar.lastNanos := by
  have hfirst := w.start.first_le
  rw [clockAt, Instant.ofNanos?]
  split
  · next h => exact (Int.min_eq_left h.2).symm
  · next h =>
    refine (Int.min_eq_right ?_).symm
    change Calendar.lastNanos ≤ w.start.nanos + time
    omega

omit [DecidableEq ι] in
/-- The clock goes on no faster than time does. -/
theorem clockAt_le (w : Watch ι) {time time' : Nat} (h : time ≤ time') :
    (w.clockAt time').nanos ≤ (w.clockAt time).nanos + (time' - time : Nat) := by
  rw [nanos_clockAt, nanos_clockAt]
  omega

omit [DecidableEq ι] in
/-- No claim gets a row that a relay at work holds. -/
theorem Orderly.not_hands (h : w.Orderly relays) (hallied : Allied relays stuck) {i : ι} {row : Row}
    (hrow : Guards w.toChronicle i row) (p : Partition) (limit : Nat) :
    ¬w.table.Hands (.claim p limit w.clock stuck) row.id := by
  intro hhands
  obtain ⟨hfound, hsending, hclaimed⟩ := h.custody.found i row hrow
  have hlt := Table.SentAt.lt_of_hands ⟨row, hfound, hsending, hclaimed⟩ hhands
  have hclock := w.clockAt_le (h.begun i)
  have hpatience := (h.punctual i).le (h.follows i) hrow.1
  have henough := hallied.enough i
  rw [hallied.exact] at hlt
  change w.clock.nanos ≤ _ at hclock
  omega

omit [DecidableEq ι] in
/-- A relay that is about to claim does so as of the time at which it began, and holds nothing yet. -/
theorem Orderly.claims (h : w.Orderly relays) (hallied : Allied relays stuck) {j : ι} {p : Partition} {limit : Nat}
    {now : Instant} {threshold : Span} {next : Except Interrupt (List Row) → Program Unit}
    (hphase : w.phase j = .working (.act (.ask (.claim p limit now threshold)) next)) :
    w.clockAt (w.begun j) = now ∧ (∀ row, ¬(w.story j).Holds row) ∧
      ∀ i row, Guards w.toChronicle i row → ¬w.table.Hands (.claim p limit now threshold) row.id := by
  have hfollows := h.follows j
  have hpunctual := h.punctual j
  rw [hphase] at hfollows hpunctual
  obtain ⟨⟨-, -, rfl⟩, hdates, hnew⟩ := hfollows.1
  obtain ⟨-, htime, hclock⟩ := hpunctual
  have hbegun : w.begun j = w.time := by
    have hpatience : (w.story j).patience = 0 := Nat.le_zero.1 hnew.patience
    rw [hpatience] at htime
    exact Nat.le_antisymm (h.begun j) htime
  obtain rfl := hclock now hdates
  refine ⟨by rw [hbegun, clock], fun row hrow => ?_, fun i row hrow => ?_⟩
  · have hnone := hrow.1
    rw [hnew.claimed] at hnone
    exact absurd hnone List.not_mem_nil
  · rw [hallied.same]
    exact h.not_hands hallied hrow p limit

theorem Orderly.advance (h : w.Orderly relays) (hallied : Allied relays stuck) (hadvance : w.Advance relays w') :
    w'.Orderly relays := by
  cases hadvance with
  | kept => exact h
  | passed n hsleeps =>
    refine ⟨h.follows, fun i => Nat.le_trans (h.begun i) (Nat.le_add_right _ _), fun i => ?_, h.custody⟩
    have hi := h.punctual i
    have hsleep := hsleeps i
    rw [Sleeps] at hsleep
    generalize w.phase i = phase at hi hsleep ⊢
    cases phase with
    | idle => trivial
    | working => cases hsleep
    | waiting measured limit passages next =>
      rw [Bool.and_eq_true, decide_eq_true_eq] at hsleep
      exact ⟨hi.1, hsleep.2⟩
  | @turned move c begun since hturn htimed =>
    have hpunctual := punctual_turn h.follows h.punctual hturn htimed
    refine ⟨h.follows.turn hturn fun i job hmove => ?_, fun i => ?_, hpunctual,
      h.custody.turn h.follows hturn (fun i hi => ?_) fun j p limit now threshold next hphase => ?_⟩
    · obtain ⟨⟨stats, rfl⟩, -⟩ := htimed.starts i job hmove
      exact runTick_follows (relays i) stats
    · rcases htimed.begins i with hbegun | hbegun
      · exact Nat.le_trans (Nat.le_of_eq hbegun) (h.begun i)
      · exact Nat.le_of_eq hbegun
    · exact congrArg w.clockAt (htimed.works i hi)
    · have hworks : begun j = w.begun j := htimed.works j (by rw [hphase]; exact nofun)
      obtain ⟨hnow, hrest⟩ := h.claims hallied hphase
      exact ⟨(congrArg w.clockAt hworks).trans hnow, hrest⟩

theorem orderly_run [Fintype ι] (hallied : Allied relays stuck) (start : Instant) (moves : List (Move ι)) :
    (run relays start moves).Orderly relays := by
  have hstart : Orderly relays { start := start } := {
    follows := Chronicle.follows_start relays _
    begun := fun _ => Nat.le_refl _
    punctual := fun _ => trivial
    custody := ⟨fun _ _ h => absurd rfl h.1, fun _ _ _ _ h => absurd rfl h.1⟩ }
  suffices ∀ w : Watch ι, w.Orderly relays → (moves.foldl (step relays) w).Orderly relays from this _ hstart
  induction moves with
  | nil => exact fun w hw => hw
  | cons move rest ih => exact fun w hw => ih _ (hw.advance hallied (advance_step relays w move))

end Watch

end Outbox.Relay
