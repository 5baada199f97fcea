import Outbox.Proofs.Relay.Custody
import Outbox.Proofs.Relay.Fleet

/-! A fleet with a record of what each relay was answered since it started its job. The record changes nothing that
happens. Whatever the others do in between, a relay goes on as it does alone, so that at any time all that it still
does is proper after its story. -/

namespace Outbox.Relay

open Simulation (Ending Flight)

/-- A fleet, and the story of each relay's job. -/
structure Chronicle (ι : Type) extends Fleet ι where
  story : ι → Story := fun _ => []

namespace Fleet

variable {ι : Type} {f : Fleet ι}

/-- What an action is answered at once, and the table after it. A delivery takes its time. -/
def heard (f : Fleet ι) (chance : Chance) : (action : Action) → Option (action.Answer × Table)
  | .ask request =>
    match chance.fault with
    | some fault => some (.error (.fault fault), f.table)
    | none => some (f.table.answer request)
  | .now => some (chance.now, f.table)
  | .elapsed => some (chance.elapsed, f.table)
  | .note _ => some ((), f.table)
  | .deliver _ _ _ => none

theorem credible_of_heard {chance : Chance} {action : Action} {answer : action.Answer} {table : Table}
    (h : f.heard chance action = some (answer, table)) : Credible ⟨action, answer⟩ := by
  cases action with
  | ask request =>
    cases hfault : chance.fault with
    | some fault =>
      simp only [heard, hfault] at h
      cases h
      exact credible_error request _
    | none =>
      simp only [heard, hfault] at h
      obtain ⟨rfl, rfl⟩ := Prod.ext_iff.1 (Option.some.inj h)
      exact credible_answer f.table request
  | now | elapsed | note | deliver => trivial

variable [DecidableEq ι]

theorem act_eq_of_heard {relay : ι} {chance : Chance} {action : Action} {answer : action.Answer} {table : Table}
    (h : f.heard chance action = some (answer, table)) (next : action.Answer → Program Unit) :
    f.act relay chance action next = { f with table := table }.become relay (.working (next answer)) := by
  cases action with
  | ask request =>
    rw [act]
    cases hfault : chance.fault with
    | some fault =>
      simp only [heard, hfault] at h
      cases h
      rfl
    | none =>
      simp only [heard, hfault] at h
      obtain ⟨rfl, rfl⟩ := Prod.ext_iff.1 (Option.some.inj h)
      rfl
  | now | elapsed | note => cases h; rfl
  | deliver => cases h

/-- The stories after a move: a job starts with an empty one, and an answer is added to it. -/
def tell (f : Fleet ι) (story : ι → Story) : Move ι → ι → Story
  | .start relay _ =>
    match f.phase relay with
    | .idle => Function.update story relay []
    | _ => story
  | .proceed relay chance =>
    match f.phase relay with
    | .working (.act action _) =>
      match f.heard chance action with
      | some (answer, _) => Function.update story relay (⟨action, answer⟩ :: story relay)
      | none => story
    | .waiting measured limit passages _ =>
      match Passage.deliveries? passages with
      | some deliveries =>
        Function.update story relay (⟨.deliver measured limit (passages.map Passage.parcel), deliveries⟩ :: story relay)
      | none => story
    | _ => story
  | _ => story

end Fleet

namespace Chronicle

variable {ι : Type} [DecidableEq ι] {relays : ι → Relay} {c c' : Chronicle ι} {j : ι}

def step (relays : ι → Relay) (c : Chronicle ι) (move : Move ι) : Chronicle ι :=
  { toFleet := c.toFleet.step relays move, story := c.tell c.story move }

/-- The chronicle after moves one after the other. -/
def run (relays : ι → Relay) (c : Chronicle ι) (moves : List (Move ι)) : Chronicle ι := moves.foldl (step relays) c

theorem toFleet_run (relays : ι → Relay) (c : Chronicle ι) (moves : List (Move ι)) :
    (c.run relays moves).toFleet = moves.foldl (Fleet.step relays) c.toFleet := by
  induction moves generalizing c with
  | nil => rfl
  | cons move rest ih => exact ih (c.step relays move)

/-! ### Turns -/

def become (c : Chronicle ι) (i : ι) (phase : Phase) (story : Story) : Chronicle ι :=
  { toFleet := c.toFleet.become i phase, story := Function.update c.story i story }

@[simp] theorem phase_become (c : Chronicle ι) (i : ι) (phase : Phase) (story : Story) :
    (c.become i phase story).phase i = phase :=
  Fleet.phase_become c.toFleet i phase

@[simp] theorem story_become (c : Chronicle ι) (i : ι) (phase : Phase) (story : Story) :
    (c.become i phase story).story i = story :=
  Function.update_self _ _ _

theorem phase_become_of_ne (h : j ≠ i) (c : Chronicle ι) (phase : Phase) (story : Story) :
    (c.become i phase story).phase j = c.phase j :=
  Fleet.phase_become_of_ne h c.toFleet phase

theorem story_become_of_ne (h : j ≠ i) (c : Chronicle ι) (phase : Phase) (story : Story) :
    (c.become i phase story).story j = c.story j :=
  Function.update_of_ne h _ _

/-- All that a move can do. -/
inductive Turn (relays : ι → Relay) (c : Chronicle ι) : Move ι → Chronicle ι → Prop
  | kept (move : Move ι) : Turn relays c move c
  | saved (event : Event) : Turn relays c (.save event) { c with table := c.table.after (.save event) }
  | started {i : ι} {job : Job} (h : c.phase i = .idle) :
    Turn relays c (.start i job) (c.become i (.working (job.program (relays i))) [])
  | answered {i : ι} {chance : Chance} {action : Action} {next : action.Answer → Program Unit} {answer : action.Answer}
    {table : Table} (h : c.phase i = .working (.act action next))
    (hheard : c.heard chance action = some (answer, table)) :
    Turn relays c (.proceed i chance)
      (become { c with table := table } i (.working (next answer)) (⟨action, answer⟩ :: c.story i))
  | departed {i : ι} {chance : Chance} {measured : Bool} {limit : Span} {parcels : List Parcel}
    {next : List Delivery → Program Unit} (h : c.phase i = .working (.act (.deliver measured limit parcels) next)) :
    Turn relays c (.proceed i chance)
      (c.become i (.waiting measured limit (parcels.map fun parcel => { parcel := parcel }) next) (c.story i))
  | landed {i : ι} {place start delay : Nat} {ending : Ending} {measured : Bool} {limit : Span}
    {passages : List Passage} {next : List Delivery → Program Unit} {parcel : Parcel}
    (h : c.phase i = .waiting measured limit passages next) (hparcel : passages[place]? = some ⟨parcel, none⟩)
    (landings : List (ι × Flight)) (flight : Flight) :
    Turn relays c (.land i place start delay ending)
      (become { c with landed := landings } i
        (.waiting measured limit (passages.set place ⟨parcel, some flight⟩) next) (c.story i))
  | arrived {i : ι} {chance : Chance} {measured : Bool} {limit : Span} {passages : List Passage}
    {next : List Delivery → Program Unit} {deliveries : List Delivery}
    (h : c.phase i = .waiting measured limit passages next)
    (hdeliveries : Passage.deliveries? passages = some deliveries) :
    Turn relays c (.proceed i chance)
      (c.become i (.working (next deliveries))
        (⟨.deliver measured limit (passages.map Passage.parcel), deliveries⟩ :: c.story i))
  | finished {i : ι} {chance : Chance} {result : Unit} (h : c.phase i = .working (.done result)) :
    Turn relays c (.proceed i chance) (c.become i .idle (c.story i))

theorem become_story_self (c : Chronicle ι) (i : ι) (phase : Phase) :
    c.become i phase (c.story i) = ⟨c.toFleet.become i phase, c.story⟩ := by
  rw [become, Function.update_eq_self]

theorem turn_step (relays : ι → Relay) (c : Chronicle ι) (move : Move ι) : Turn relays c move (c.step relays move) := by
  cases move with
  | save event => exact .saved event
  | start i job =>
    cases h : c.phase i with
    | idle =>
      simp only [step, Fleet.step, Fleet.tell, h]
      exact .started h
    | working | waiting =>
      simp only [step, Fleet.step, Fleet.tell, h]
      exact .kept _
  | proceed i chance =>
    cases h : c.phase i with
    | idle =>
      simp only [step, Fleet.step, Fleet.tell, h]
      exact .kept _
    | working rest =>
      cases rest with
      | done result =>
        simp only [step, Fleet.step, Fleet.tell, h]
        rw [← become_story_self]
        exact .finished h
      | act action next =>
        cases hheard : c.heard chance action with
        | some answer =>
          obtain ⟨answer, table⟩ := answer
          simp only [step, Fleet.step, Fleet.tell, h, hheard, Fleet.act_eq_of_heard hheard]
          exact .answered h hheard
        | none =>
          simp only [step, Fleet.step, Fleet.tell, h, hheard]
          cases action with
          | deliver measured limit parcels =>
            rw [Fleet.act, ← become_story_self]
            exact .departed h
          | ask request =>
            rw [Fleet.heard] at hheard
            split at hheard <;> cases hheard
          | now | elapsed | note => cases hheard
    | waiting measured limit passages next =>
      cases hdeliveries : Passage.deliveries? passages with
      | some deliveries =>
        simp only [step, Fleet.step, Fleet.tell, h, hdeliveries]
        exact .arrived h hdeliveries
      | none =>
        simp only [step, Fleet.step, Fleet.tell, h, hdeliveries]
        exact .kept _
  | land i place start delay ending =>
    change Turn relays c _ ⟨c.toFleet.land i place start delay ending, c.story⟩
    rw [Fleet.land]
    split
    · next measured limit passages next h =>
      split
      · next parcel hparcel =>
        let flight := Flight.depart parcel { delay := delay, ending := ending } start limit measured
        let c' : Chronicle ι := ⟨{ c.toFleet with landed := (i, flight) :: c.landed }, c.story⟩
        have hlanded : Turn relays c (.land i place start delay ending) (c'.become i _ (c'.story i)) :=
          .landed h hparcel ((i, flight) :: c.landed) flight
        rwa [become_story_self] at hlanded
      · exact .kept _
    · exact .kept _

/-! ### What relays still do -/

end Chronicle

section Follows

variable {relay : Relay} {dated : Story → Instant → Prop} {story : Story}

/-- All that a relay in a phase still does is proper after its story. -/
def Phase.Follows (relay : Relay) (dated : Story → Instant → Prop) (story : Story) : Phase → Prop
  | .idle => True
  | .working rest => rest.Abides Credible (relay.Proper dated) (fun _ _ => True) story
  | .waiting measured limit passages next =>
    story.patience + limit.timerMillis ≤ relay.patience ∧
      ∀ deliveries, (next deliveries).Abides Credible (relay.Proper dated) (fun _ _ => True)
        (⟨.deliver measured limit (passages.map Passage.parcel), deliveries⟩ :: story)

theorem Proper.mono {dated' : Story → Instant → Prop} {action : Action} (h : relay.Proper dated story action)
    (hdated : ∀ time, dated story time → dated' story time) : relay.Proper dated' story action := by
  cases action with
  | ask request =>
    cases request with
    | claim => exact ⟨h.1, hdated _ h.2.1, h.2.2⟩
    | save | markPublished | markFailed | markDead | counts => exact h
  | now | elapsed | deliver | note => exact h

theorem runTick_follows (relay : Relay) (stats : Stats) :
    Phase.Follows relay Story.Dates [] (.working (Job.program relay (.runTick stats))) :=
  .bind (runTick_abides stats) fun _ _ _ => .pure trivial

theorem job_follows (relay : Relay) (job : Job) :
    Phase.Follows relay (fun _ _ => True) [] (.working (job.program relay)) := by
  cases job with
  | tickAt now => exact .bind (tickAt_abides (.refl []) trivial) fun _ _ _ => .pure trivial
  | runTick stats => exact (runTick_follows relay stats).widen fun _ _ h => h.mono fun _ _ => trivial

end Follows

namespace Chronicle

variable {ι : Type} [DecidableEq ι] {relays : ι → Relay} {c c' : Chronicle ι} {dated : Story → Instant → Prop}

def Follows (relays : ι → Relay) (dated : Story → Instant → Prop) (c : Chronicle ι) : Prop :=
  ∀ i, (c.phase i).Follows (relays i) dated (c.story i)

omit [DecidableEq ι] in
/-- Relays that do nothing have nothing to do. -/
theorem follows_start (relays : ι → Relay) (dated : Story → Instant → Prop) : Follows relays dated {} :=
  fun _ => trivial

theorem Follows.become {i : ι} {phase : Phase} {story : Story} (h : c.Follows relays dated)
    (hphase : phase.Follows (relays i) dated story) : (c.become i phase story).Follows relays dated := by
  intro j
  by_cases hj : j = i
  · subst hj
    rw [phase_become, story_become]
    exact hphase
  · rw [phase_become_of_ne hj, story_become_of_ne hj]
    exact h j

/-- A relay goes on as it does alone, whatever the others do. -/
theorem Follows.turn {move : Move ι} (h : c.Follows relays dated) (hturn : Turn relays c move c')
    (hstart : ∀ i job, move = .start i job → Phase.Follows (relays i) dated [] (.working (job.program (relays i)))) :
    c'.Follows relays dated := by
  cases hturn with
  | kept => exact h
  | saved => exact h
  | started => exact h.become (hstart _ _ rfl)
  | @answered i chance action next answer table hphase hheard =>
    have hnow := h i
    rw [hphase] at hnow
    have hc : Follows relays dated { c with table := table } := h
    exact hc.become (hnow.2 answer (Fleet.credible_of_heard hheard))
  | @departed i chance measured limit parcels next hphase =>
    have hnow := h i
    rw [hphase] at hnow
    refine h.become ⟨hnow.1, fun deliveries => ?_⟩
    rw [List.map_map]
    have hparcels : parcels.map (Passage.parcel ∘ fun parcel => { parcel := parcel }) = parcels := List.map_id _
    rw [hparcels]
    exact hnow.2 deliveries trivial
  | @landed i place start delay ending measured limit passages next parcel hphase hparcel landings flight =>
    have hnow := h i
    rw [hphase] at hnow
    have hc : Follows relays dated { c with landed := landings } := h
    refine hc.become ⟨hnow.1, fun deliveries => ?_⟩
    rw [Passage.map_parcel_set hparcel]
    exact hnow.2 deliveries
  | @arrived i chance measured limit passages next deliveries hphase =>
    have hnow := h i
    rw [hphase] at hnow
    exact h.become (hnow.2 deliveries)
  | finished => exact h.become trivial

end Chronicle

end Outbox.Relay
