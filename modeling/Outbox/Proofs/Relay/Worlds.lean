import Outbox.Proofs.Relay.Custody
import Outbox.Simulation.World

/-! Programs that run to their end in a world. What holds of a world and is kept by every action that is allowed holds
at the end of a program that does nothing else. Time passes only while something is delivered, and no longer than the
limit of the delivery. -/

namespace Outbox.Simulation.World

open Relay (Action Exchange Parcel Program Story)

variable {σ α : Type} {b : Backend σ} {w : World σ}

/-! ### One action -/

/-- What an action is answered, and the world after it. -/
def respond (b : Backend σ) (w : World σ) : (action : Action) → action.Answer × World σ
  | .ask r => w.ask b r
  | .now => (w.now, w)
  | .elapsed => (w.elapsed, w)
  | .note m => ((), w.record m)
  | .deliver measured limit parcels =>
    let (flights, w) := w.depart measured limit parcels
    (flights.map Flight.delivery, w.landAll b (inOrder flights))

theorem complete_respond (b : Backend σ) (w : World σ) (action : Action) (next : action.Answer → Program α) :
    w.complete b (.act action next) = (w.respond b action).2.complete b (next (w.respond b action).1) := by
  cases action <;> rfl

/-- What every allowed action keeps holds at the end of a program, and so does what the program is to end with. -/
theorem complete_abides {possible : Exchange → Prop} {allowed : Story → Action → Prop} {post : α → Story → Prop}
    {x : Program α} {story : Story} (b : Backend σ) (inv : World σ → Story → Prop)
    (hx : x.Abides possible allowed post story) (hw : inv w story)
    (hstep : ∀ w story action, inv w story → allowed story action →
      possible ⟨action, (w.respond b action).1⟩ ∧
        inv (w.respond b action).2 (⟨action, (w.respond b action).1⟩ :: story)) :
    ∃ s, post (w.complete b x).1 s ∧ inv (w.complete b x).2 s := by
  induction x generalizing story w with
  | done a => exact ⟨story, hx, hw⟩
  | act action next ih =>
    obtain ⟨hanswer, hnext⟩ := hstep w story action hw hx.1
    rw [complete_respond]
    exact ih _ (hx.2 _ hanswer) hnext

/-! ### Time -/

theorem elapsed_depart (w : World σ) (measured : Bool) (limit : Span) (parcels : List Parcel) :
    (w.depart measured limit parcels).2.elapsed = w.elapsed ∧
      ∀ flight ∈ (w.depart measured limit parcels).1, flight.finish ≤ w.elapsed + limit.timerMillis := by
  induction parcels generalizing w with
  | nil => exact ⟨rfl, fun _ h => absurd h List.not_mem_nil⟩
  | cons parcel rest ih =>
    obtain ⟨htime, hfinish⟩ := ih { w with rules := (chooseRule parcel w.rules).2 }
    refine ⟨htime, List.forall_mem_cons.2 ⟨?_, hfinish⟩⟩
    exact Nat.add_le_add_left (Nat.min_le_right _ _) _

theorem elapsed_land (b : Backend σ) (w : World σ) (flight : Flight) :
    (w.land b flight).elapsed = max w.elapsed flight.finish := by
  rw [land, arrive]
  cases flight.rule.ending <;> (split <;> split) <;> rfl

theorem elapsed_landAll_le {bound : Nat} {flights : List Flight} (hw : w.elapsed ≤ bound)
    (h : ∀ flight ∈ flights, flight.finish ≤ bound) : (w.landAll b flights).elapsed ≤ bound := by
  induction flights generalizing w with
  | nil => exact hw
  | cons flight rest ih =>
    obtain ⟨hfirst, hrest⟩ := List.forall_mem_cons.1 h
    refine ih ?_ hrest
    rw [elapsed_land]
    exact Nat.max_le.2 ⟨hw, hfirst⟩

/-- An action takes no longer than the relay may wait for it. -/
theorem elapsed_respond_le (b : Backend σ) (w : World σ) (action : Action) (answer : action.Answer) :
    (w.respond b action).2.elapsed ≤ w.elapsed + Exchange.patience ⟨action, answer⟩ := by
  cases action with
  | ask request =>
    have hclock : (w.setClock request).elapsed = w.elapsed := by
      cases request with
      | save event =>
        rw [setClock]
        split <;> rfl
      | claim | markPublished | markFailed | markDead | counts => rfl
    exact Nat.le_of_eq hclock
  | now | elapsed | note => exact Nat.le_refl _
  | deliver measured limit parcels =>
    obtain ⟨htime, hfinish⟩ := w.elapsed_depart measured limit parcels
    refine elapsed_landAll_le ?_ fun flight hflight => hfinish flight (List.mem_mergeSort.1 hflight)
    rw [htime]
    exact Nat.le_add_right _ _

/-! ### Ticks -/

/-- The answers of a table are credible, also if some calls fail before they reach it. -/
theorem credible_respond (disruptions : List Disruption) (w : World (Disruption.State Table)) (action : Action) :
    Relay.Credible ⟨action, (w.respond (tableBackend.disrupted disruptions) action).1⟩ := by
  cases action with
  | ask request =>
    change Relay.Credible ⟨.ask request, (Disruption.answer Table.store disruptions request _).1⟩
    rw [Disruption.answer]
    dsimp only
    split
    · exact Relay.credible_error request _
    · exact Relay.credible_answer _ request
  | now | elapsed | note | deliver => trivial

/-- A tick takes no longer than the relay's patience. -/
theorem elapsed_tick_le (relay : Relay) (disruptions : List Disruption) (w : World (Disruption.State Table)) :
    (w.complete (tableBackend.disrupted disruptions) relay.tick.run).2.elapsed ≤ w.elapsed + relay.patience := by
  let inv (w' : World (Disruption.State Table)) (s : Story) : Prop :=
    w'.elapsed ≤ w.elapsed + s.patience ∧ s.patience ≤ relay.patience
  obtain ⟨s, -, htime, hpatience⟩ := complete_abides (tableBackend.disrupted disruptions) inv
    (relay.tick_abides (.refl [])) ⟨Nat.le_refl _, Nat.zero_le _⟩ fun w' s action ⟨htime, hpatience⟩ hallowed => by
      have hnext := elapsed_respond_le (tableBackend.disrupted disruptions) w' action
        (w'.respond (tableBackend.disrupted disruptions) action).1
      refine ⟨credible_respond disruptions w' action, ?_, hallowed.patience_le hpatience _⟩
      rw [Story.patience]
      omega
  omega

end Outbox.Simulation.World
