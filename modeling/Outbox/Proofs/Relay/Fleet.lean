import Mathlib.Logic.Function.Basic
import Outbox.Proofs.Store.Lookup
import Outbox.Relay.Tick
import Outbox.Simulation.World

/-! Relays that share a table. Each does its ticks action by action, in any order with the actions of the
others, with events that the application saves, and with deliveries that come to an end one at a time. A call
of the table may fail before it gets there, the clock shows anything, and a delivery ends as it likes, in time
or not. -/

namespace Outbox.Relay

open Simulation (Ending Flight)

/-- What a relay is set to do: a tick as of a time, or a tick that is counted. -/
inductive Job
  | tickAt (now : Instant)
  | runTick (stats : Stats)

/-- The actions of a job, whatever it comes to. -/
def Job.program (relay : Relay) : Job → Program Unit
  | .tickAt now => do let _ ← (relay.tickAt now).run
  | .runTick stats => do let _ ← relay.runTick stats

/-- A parcel that is being delivered, with its flight once that has ended. -/
structure Passage where
  parcel : Parcel
  flight : Option Flight := none

/-- The deliveries of parcels, once all of them are through. -/
def Passage.deliveries? : List Passage → Option (List Delivery)
  | [] => some []
  | passage :: rest => do
    let flight ← passage.flight
    let deliveries ← deliveries? rest
    return flight.delivery :: deliveries

/-- A passage that has ended is still of the same parcel. -/
theorem Passage.map_parcel_set {passages : List Passage} {place : Nat} {parcel : Parcel} {flight flight' : Option Flight}
    (h : passages[place]? = some ⟨parcel, flight⟩) :
    (passages.set place ⟨parcel, flight'⟩).map Passage.parcel = passages.map Passage.parcel := by
  obtain ⟨hplace, hpassage⟩ := List.getElem?_eq_some_iff.1 h
  have hbound : place < (passages.map Passage.parcel).length := by rwa [List.length_map]
  have hsame : (passages.map Passage.parcel)[place] = parcel := by rw [List.getElem_map, hpassage]
  rw [List.map_set, ← hsame, List.set_getElem_self]

/-- How far a relay is. -/
inductive Phase
  | idle
  | working (rest : Program Unit)
  | waiting (measured : Bool) (limit : Span) (passages : List Passage) (next : List Delivery → Program Unit)

/-- What the next action of a relay meets with, as far as it matters. -/
structure Chance where
  fault : Option StoreFault := none
  now : Instant := .epoch
  elapsed : Nat := 0

/-- One thing that happens. -/
inductive Move (ι : Type)
  | save (event : Event)
  | start (relay : ι) (job : Job)
  | proceed (relay : ι) (chance : Chance)
  /-- The delivery at a place among those of a relay ends, after so many milliseconds if it is not cut off. -/
  | land (relay : ι) (place start delay : Nat) (ending : Ending)

/-- The relays of a fleet are known by names. -/
structure Fleet (ι : Type) where
  table : Table := {}
  phase : ι → Phase := fun _ => .idle
  /-- The deliveries that have ended, latest first. -/
  landed : List (ι × Flight) := []

namespace Fleet

variable {ι : Type} [DecidableEq ι]

def become (f : Fleet ι) (relay : ι) (phase : Phase) : Fleet ι :=
  { f with phase := Function.update f.phase relay phase }

theorem phase_become (f : Fleet ι) (relay : ι) (phase : Phase) : (f.become relay phase).phase relay = phase :=
  Function.update_self _ _ _

theorem phase_become_of_ne {relay other : ι} (h : other ≠ relay) (f : Fleet ι) (phase : Phase) :
    (f.become relay phase).phase other = f.phase other :=
  Function.update_of_ne h _ _

/-- An action of a relay. A call that fails leaves the table as it is. -/
def act (f : Fleet ι) (relay : ι) (chance : Chance) : (action : Action) → (action.Answer → Program Unit) → Fleet ι
  | .ask request, next =>
    match chance.fault with
    | some fault => f.become relay (.working (next (.error (.fault fault))))
    | none => { f with table := f.table.after request }.become relay (.working (next (f.table.answer request).1))
  | .now, next => f.become relay (.working (next chance.now))
  | .elapsed, next => f.become relay (.working (next chance.elapsed))
  | .note _, next => f.become relay (.working (next ()))
  | .deliver measured limit parcels, next =>
    f.become relay (.waiting measured limit (parcels.map fun parcel => { parcel := parcel }) next)

/-- A delivery of a relay that waits; it is cut off at its limit. -/
def land (f : Fleet ι) (relay : ι) (place start delay : Nat) (ending : Ending) : Fleet ι :=
  match f.phase relay with
  | .waiting measured limit passages next =>
    match passages[place]? with
    | some ⟨parcel, none⟩ =>
      let flight := Flight.depart parcel { delay := delay, ending := ending } start limit measured
      { f with landed := (relay, flight) :: f.landed }.become relay
        (.waiting measured limit (passages.set place ⟨parcel, some flight⟩) next)
    | _ => f
  | _ => f

/-- What happens next; nothing if that cannot happen now. -/
def step (relays : ι → Relay) (f : Fleet ι) : Move ι → Fleet ι
  | .save event => { f with table := f.table.after (.save event) }
  | .start relay job =>
    match f.phase relay with
    | .idle => f.become relay (.working (job.program (relays relay)))
    | _ => f
  | .proceed relay chance =>
    match f.phase relay with
    | .idle => f
    | .working (.done _) => f.become relay .idle
    | .working (.act action next) => f.act relay chance action next
    | .waiting _ _ passages next =>
      match Passage.deliveries? passages with
      | some deliveries => f.become relay (.working (next deliveries))
      | none => f
  | .land relay place start delay ending => f.land relay place start delay ending

/-- The fleet after moves one after the other, from an empty table and relays that do nothing. -/
def run (relays : ι → Relay) (moves : List (Move ι)) : Fleet ι := moves.foldl (step relays) {}

end Fleet

end Outbox.Relay
