import Outbox.Proofs.Relay.Surroundings

/-! A world with a script is one of the surroundings that a program may run in: as long as nobody else marks
rows, all that it answers follows from its first state and from what was exchanged since. -/

namespace Outbox

open Relay (Action Exchange Parcel Program Scene Story Surroundings)
open Simulation

namespace Simulation

/-- No delivery is overtaken by somebody who marks rows. -/
def Rule.IsQuiet (rule : Rule) : Prop := rule.overtaken = []

/-- The rules of parcels that are delivered side by side. -/
def chooseRules : List Rule → List Parcel → List Rule
  | _, [] => []
  | rules, parcel :: rest => (chooseRule parcel rules).1 :: chooseRules (chooseRule parcel rules).2 rest

theorem chooseRule_quiet (parcel : Parcel) {rules : List Rule} (h : ∀ rule ∈ rules, rule.IsQuiet) :
    (chooseRule parcel rules).1.IsQuiet ∧ ∀ rule ∈ (chooseRule parcel rules).2, rule.IsQuiet := by
  induction rules with
  | nil => exact ⟨rfl, h⟩
  | cons first rest ih =>
    obtain ⟨hfirst, hrest⟩ := List.forall_mem_cons.1 h
    rw [chooseRule]
    split
    · exact ⟨hfirst, List.forall_mem_cons.2 ⟨hfirst, hrest⟩⟩
    · exact ⟨(ih hrest).1, List.forall_mem_cons.2 ⟨hfirst, (ih hrest).2⟩⟩

namespace World

variable {w : World Table} {α : Type}

/-- A world in which only the program that runs changes the table. -/
def IsQuiet (w : World Table) : Prop := ∀ rule ∈ w.rules, rule.IsQuiet

theorem depart_quiet (h : w.IsQuiet) (measured : Bool) (limit : Span) (parcels : List Parcel) :
    (∀ flight ∈ (w.depart measured limit parcels).1, flight.rule.IsQuiet) ∧
      (w.depart measured limit parcels).2.IsQuiet ∧ (w.depart measured limit parcels).2.contents = w.contents := by
  induction parcels generalizing w with
  | nil => exact ⟨fun _ h => absurd h List.not_mem_nil, h, rfl⟩
  | cons parcel rest ih =>
    obtain ⟨hrule, hrules⟩ := chooseRule_quiet parcel h
    have := ih (w := { w with rules := (chooseRule parcel w.rules).2 }) hrules
    rw [depart]
    exact ⟨List.forall_mem_cons.2 ⟨hrule, this.1⟩, this.2⟩

theorem map_delivery_depart (w : World Table) (measured : Bool) (limit : Span) (parcels : List Parcel) :
    (w.depart measured limit parcels).1.map Flight.delivery = parcels.mapIdx fun place parcel =>
      (Flight.depart parcel ((chooseRules w.rules parcels).getD place .plain) 0 limit measured).delivery := by
  induction parcels generalizing w with
  | nil => rfl
  | cons parcel rest ih =>
    have := ih { w with rules := (chooseRule parcel w.rules).2 }
    rw [depart, List.mapIdx_cons]
    simp only [chooseRules, List.getD_cons_zero, List.getD_cons_succ, List.map_cons]
    rw [this, Flight.delivery_depart, Flight.delivery_depart]

theorem rules_land (w : World Table) (flight : Flight) : (w.land tableBackend flight).rules = w.rules := by
  rw [land, arrive]
  cases flight.rule.ending <;> (split <;> split) <;> rfl

theorem contents_land (w : World Table) {flight : Flight} (h : flight.rule.IsQuiet) :
    (w.land tableBackend flight).contents = w.contents := by
  have hmark (now : Instant) (t : Table) : tableBackend.overtake flight.rule.overtaken now t = t := by
    rw [h]
    rfl
  rw [land, arrive]
  cases flight.rule.ending <;> (split <;> split) <;> first | rfl | exact hmark _ _

theorem landAll_quiet (h : w.IsQuiet) {flights : List Flight} (hflights : ∀ flight ∈ flights, flight.rule.IsQuiet) :
    (w.landAll tableBackend flights).IsQuiet ∧ (w.landAll tableBackend flights).contents = w.contents := by
  induction flights generalizing w with
  | nil => exact ⟨h, rfl⟩
  | cons flight rest ih =>
    obtain ⟨hflight, hrest⟩ := List.forall_mem_cons.1 hflights
    have hquiet : (w.land tableBackend flight).IsQuiet := by rwa [IsQuiet, rules_land]
    obtain ⟨hlanded, hcontents⟩ := ih hquiet hrest
    exact ⟨hlanded, hcontents.trans (contents_land w hflight)⟩

/-! ### Replaying a story -/

def answer (w : World Table) : (action : Action) → action.Answer
  | .ask request => (w.ask tableBackend request).1
  | .now => w.now
  | .elapsed => w.elapsed
  | .note _ => ()
  | .deliver measured limit parcels => (w.depart measured limit parcels).1.map Flight.delivery

/-- The world after an action. -/
def perform (w : World Table) : Action → World Table
  | .ask request => (w.ask tableBackend request).2
  | .now | .elapsed => w
  | .note m => w.record m
  | .deliver measured limit parcels =>
    (w.depart measured limit parcels).2.landAll tableBackend (inOrder (w.depart measured limit parcels).1)

/-- The world after the actions of a story. -/
def replay (w : World Table) : Story → World Table
  | [] => w
  | exchange :: earlier => (w.replay earlier).perform exchange.1

/-- What a program meets with in a world. -/
def surroundings (w : World Table) : Surroundings where
  now story := (w.replay story).now
  elapsed story := (w.replay story).elapsed
  fault _ _ := none
  treat story parcels place := (chooseRules (w.replay story).rules parcels).getD place .plain

theorem setClock_eq (w : World Table) (request : Request) :
    (w.setClock request).rules = w.rules ∧ (w.setClock request).contents = w.contents := by
  cases request with
  | save e =>
    rw [setClock]
    split <;> exact ⟨rfl, rfl⟩
  | claim | markPublished | markFailed | markDead | counts => exact ⟨rfl, rfl⟩

theorem ask_eq (w : World Table) (request : Request) :
    (w.ask tableBackend request).1 = (w.contents.answer request).1 ∧
      (w.ask tableBackend request).2.contents = (w.contents.answer request).2 := by
  rw [← (setClock_eq w request).2]
  exact ⟨rfl, rfl⟩

theorem perform_deliver (h : w.IsQuiet) (measured : Bool) (limit : Span) (parcels : List Parcel) :
    (w.perform (.deliver measured limit parcels)).IsQuiet ∧
      (w.perform (.deliver measured limit parcels)).contents = w.contents := by
  obtain ⟨hflights, hquiet, hcontents⟩ := depart_quiet h measured limit parcels
  have hordered : ∀ flight ∈ inOrder (w.depart measured limit parcels).1, flight.rule.IsQuiet :=
    fun flight hflight => hflights flight (List.mem_mergeSort.1 hflight)
  obtain ⟨hlanded, hsame⟩ := landAll_quiet hquiet hordered
  exact ⟨hlanded, hsame.trans hcontents⟩

theorem perform_quiet (h : w.IsQuiet) (action : Action) : (w.perform action).IsQuiet := by
  cases action with
  | ask request =>
    have hrules : (w.ask tableBackend request).2.rules = w.rules := (setClock_eq w request).1
    rwa [perform, IsQuiet, hrules]
  | now | elapsed | note => exact h
  | deliver measured limit parcels => exact (perform_deliver h measured limit parcels).1

theorem replay_quiet (h : w.IsQuiet) (story : Story) : (w.replay story).IsQuiet := by
  induction story with
  | nil => exact h
  | cons exchange earlier ih => exact perform_quiet ih exchange.1

theorem complete_act (w : World Table) (action : Action) (next : action.Answer → Program α) :
    w.complete tableBackend (.act action next) = (w.perform action).complete tableBackend (next (w.answer action)) := by
  cases action <;> rfl

/-- The surroundings that a world makes answer as the world does. -/
theorem answer_surroundings (h : w.IsQuiet) (story : Story) (action : Action) :
    w.surroundings.answer ⟨(w.replay story).contents, story⟩ action =
      ((w.replay story).answer action, ((w.replay story).perform action).contents) := by
  have hquiet := replay_quiet h story
  cases action with
  | ask request =>
    obtain ⟨hanswer, hcontents⟩ := ask_eq (w.replay story) request
    exact Prod.ext hanswer.symm hcontents.symm
  | now | elapsed | note => rfl
  | deliver measured limit parcels =>
    exact Prod.ext (map_delivery_depart _ _ _ _).symm (perform_deliver hquiet measured limit parcels).2.symm

theorem complete_replay (h : w.IsQuiet) (x : Program α) (story : Story) :
    ((w.replay story).complete tableBackend x).1 =
        (x.runIn w.surroundings ⟨(w.replay story).contents, story⟩).1 ∧
      ((w.replay story).complete tableBackend x).2.contents =
        (x.runIn w.surroundings ⟨(w.replay story).contents, story⟩).2.table := by
  induction x generalizing story with
  | done a => exact ⟨rfl, rfl⟩
  | act action next ih =>
    rw [complete_act, Program.runIn_act, answer_surroundings h]
    exact ih _ (⟨action, (w.replay story).answer action⟩ :: story)

/-- A program comes to the same result, and leaves the same table, in a world and in the surroundings that the
world makes. -/
theorem complete_eq_runIn (h : w.IsQuiet) (x : Program α) :
    (w.complete tableBackend x).1 = (x.runIn w.surroundings { table := w.contents }).1 ∧
      (w.complete tableBackend x).2.contents = (x.runIn w.surroundings { table := w.contents }).2.table :=
  complete_replay h x []

end World

end Simulation

end Outbox
