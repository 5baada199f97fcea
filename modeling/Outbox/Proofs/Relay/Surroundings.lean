import Outbox.Proofs.Relay.Conduct
import Outbox.Simulation.World
import Outbox.Store.Table

/-! Programs that run on a table in surroundings of any kind: what the clocks show, which calls fail and how the broker
treats a parcel may depend on all that was exchanged before. The table is a program's own, or it is shared with others
that make of it what they like before the program starts and while parcels are on their way. Every program ends. -/

namespace Outbox.Relay

open Simulation (Flight)

/-- What answers a program apart from the table. -/
structure Surroundings where
  now : Story → Instant
  elapsed : Story → Nat
  /-- A call that fails does not reach the table. -/
  fault : Story → Request → Option StoreFault
  /-- What the broker does with the parcel at a place among those that are delivered side by side. -/
  treat : Story → List Parcel → Nat → Simulation.Rule

/-- A table, and what was exchanged so far. -/
structure Scene where
  table : Table
  story : Story := []

namespace Surroundings

/-- No call fails. -/
def Faultless (env : Surroundings) : Prop := ∀ story request, env.fault story request = none

/-- The broker may do anything with what is delivered to a topic but crash. -/
def Spares (env : Surroundings) (topic : String) : Prop :=
  ∀ story parcels place parcel text, parcels[place]? = some parcel → parcel.topic = topic →
    (env.treat story parcels place).ending ≠ .crash text

/-- How parcels under a time limit come out. -/
def deliver (env : Surroundings) (story : Story) (measured : Bool) (limit : Span) (parcels : List Parcel) :
    List Delivery :=
  parcels.mapIdx fun place parcel =>
    (Flight.depart parcel (env.treat story parcels place) 0 limit measured).delivery

def answer (env : Surroundings) (s : Scene) : (action : Action) → action.Answer × Table
  | .ask request =>
    match env.fault s.story request with
    | some fault => (.error (.fault fault), s.table)
    | none => s.table.answer request
  | .now => (env.now s.story, s.table)
  | .elapsed => (env.elapsed s.story, s.table)
  | .deliver measured limit parcels => (env.deliver s.story measured limit parcels, s.table)
  | .note _ => ((), s.table)

end Surroundings

/-- Surroundings with others at the table. -/
structure SharedSurroundings extends Surroundings where
  /-- What the others make of the table while parcels are on their way, or before anything is exchanged. -/
  meddle : Story → Table → Table

/-- Surroundings in which nobody else is at the table. -/
def Surroundings.alone (env : Surroundings) : SharedSurroundings := { env with meddle := fun _ t => t }

def SharedSurroundings.answer (c : SharedSurroundings) (s : Scene) : (action : Action) → action.Answer × Table
  | .deliver measured limit parcels => (c.deliver s.story measured limit parcels, c.meddle s.story s.table)
  | action => c.toSurroundings.answer s action

namespace Program

variable {α β : Type} {env : Surroundings} {s : Scene}

/-- Runs a program to its end, with the answers that its actions get and what they make of the table. -/
def runWith (answer : Scene → (action : Action) → action.Answer × Table) : Program α → Scene → α × Scene
  | done a, s => (a, s)
  | act action next, s =>
    (next (answer s action).1).runWith answer ⟨(answer s action).2, ⟨action, (answer s action).1⟩ :: s.story⟩

theorem runWith_bind (answer : Scene → (action : Action) → action.Answer × Table) (x : Program α) (f : α → Program β)
    (s : Scene) : (x >>= f).runWith answer s = (f (x.runWith answer s).1).runWith answer (x.runWith answer s).2 := by
  induction x generalizing s with
  | done a => rfl
  | act action next ih => exact ih _ _

/-- Runs a program on a table of its own. -/
def runIn (env : Surroundings) (x : Program α) (s : Scene) : α × Scene := x.runWith env.answer s

theorem runIn_act (env : Surroundings) (action : Action) (next : action.Answer → Program α) (s : Scene) :
    (act action next).runIn env s =
      (next (env.answer s action).1).runIn env ⟨(env.answer s action).2, ⟨action, (env.answer s action).1⟩ :: s.story⟩ :=
  rfl

/-- A program ends with a result and in a scene for which a condition holds. -/
def Yields (env : Surroundings) (post : α → Scene → Prop) (x : Program α) (s : Scene) : Prop :=
  post (x.runIn env s).1 (x.runIn env s).2

/-- The same for a program that is not interrupted. -/
def Interruptible.Yields (env : Surroundings) (post : α → Scene → Prop) (x : Interruptible α) (s : Scene) : Prop :=
  Program.Yields env (fun result s' => ∃ a, result = .ok a ∧ post a s') x.run s

namespace Yields

variable {post : α → Scene → Prop} {x : Program α}

theorem pure {a : α} (h : post a s) : (Pure.pure a : Program α).Yields env post s := h

theorem perform (action : Action) :
    (Program.perform action).Yields env (fun answer s' =>
      answer = (env.answer s action).1 ∧ s' = ⟨(env.answer s action).2, ⟨action, answer⟩ :: s.story⟩) s :=
  ⟨rfl, rfl⟩

theorem imp {post' : α → Scene → Prop} (hx : x.Yields env post s) (h : ∀ a s', post a s' → post' a s') :
    x.Yields env post' s :=
  h _ _ hx

theorem bind {f : α → Program β} {post' : β → Scene → Prop} (hx : x.Yields env post s)
    (hf : ∀ a s', post a s' → (f a).Yields env post' s') : (x >>= f).Yields env post' s := by
  rw [Yields, runIn, runWith_bind]
  exact hf _ _ hx

end Yields

namespace Interruptible.Yields

variable {post : α → Scene → Prop} {x : Interruptible α}

theorem pure {a : α} (h : post a s) : (Pure.pure a : Interruptible α).Yields env post s := ⟨a, rfl, h⟩

theorem lift {x : Program α} (hx : x.Yields env post s) : (liftM x : Interruptible α).Yields env post s :=
  Program.Yields.bind hx fun a _ h => ⟨a, rfl, h⟩

theorem ofExcept {result : Except Interrupt α} {a : α} (h : result = .ok a) :
    (liftM result : Interruptible α).Yields env (fun b s' => b = a ∧ s' = s) s := by
  subst h
  exact ⟨a, rfl, rfl, rfl⟩

/-- A call that does not fail gets the table's answer. -/
theorem ask {request : Request} {a : request.Answer} {t : Table} (hfault : env.fault s.story request = none)
    (ha : s.table.answer request = (.ok a, t)) :
    (Program.ask request).Yields env (fun b s' => b = a ∧ s' = ⟨t, ⟨.ask request, .ok a⟩ :: s.story⟩) s := by
  have hanswer : env.answer s (.ask request) = (.ok a, t) := by rw [Surroundings.answer, hfault]; exact ha
  refine (Program.Yields.perform (.ask request)).imp fun result s' h => ?_
  rw [hanswer] at h
  obtain ⟨rfl, rfl⟩ := h
  exact ⟨a, rfl, rfl, rfl⟩

theorem imp {post' : α → Scene → Prop} (hx : x.Yields env post s) (h : ∀ a s', post a s' → post' a s') :
    x.Yields env post' s :=
  Program.Yields.imp hx fun _ s' ⟨a, ha, hpost⟩ => ⟨a, ha, h a s' hpost⟩

theorem bind {f : α → Interruptible β} {post' : β → Scene → Prop} (hx : x.Yields env post s)
    (hf : ∀ a s', post a s' → (f a).Yields env post' s') : (x >>= f).Yields env post' s :=
  Program.Yields.bind hx fun result s' ⟨a, ha, h⟩ => by
    subst ha
    exact hf a s' h

end Interruptible.Yields

end Program

/-! ### Shared tables -/

namespace SharedSurroundings

variable {c : SharedSurroundings}

/-- A call fails, or the table answers it. -/
theorem answer_ask (c : SharedSurroundings) (s : Scene) (request : Request) :
    (∃ fault, c.answer s (.ask request) = (.error (.fault fault), s.table)) ∨
      c.answer s (.ask request) = s.table.answer request := by
  change (∃ fault, c.toSurroundings.answer s (.ask request) = _) ∨ c.toSurroundings.answer s (.ask request) = _
  rw [Surroundings.answer]
  split
  · exact .inl ⟨_, rfl⟩
  · exact .inr rfl

/-- The scene after an action. -/
def after (c : SharedSurroundings) (s : Scene) (action : Action) : Scene :=
  ⟨(c.answer s action).2, ⟨action, (c.answer s action).1⟩ :: s.story⟩

/-- Runs a program on a table that it shares. -/
def complete {α : Type} (c : SharedSurroundings) (x : Program α) (s : Scene) : α × Scene := x.runWith c.answer s

theorem complete_bind {α β : Type} (x : Program α) (f : α → Program β) (s : Scene) :
    c.complete (x >>= f) s = c.complete (f (c.complete x s).1) (c.complete x s).2 := x.runWith_bind c.answer f s

theorem complete_bind_of {α β : Type} {x : Program α} {a : α} {s s' : Scene} (h : c.complete x s = (a, s'))
    (f : α → Program β) : c.complete (x >>= f) s = c.complete (f a) s' := by
  rw [complete_bind, h]

/-- What every allowed action keeps holds at the end of a program, and so does what the program is to end with. -/
theorem complete_abides {α : Type} {possible : Exchange → Prop} {allowed : Story → Action → Prop}
    {post : α → Story → Prop} {x : Program α} {s : Scene} (inv : Story → Prop)
    (hx : x.Abides possible allowed post s.story) (hs : inv s.story)
    (hstep : ∀ s action, inv s.story → allowed s.story action →
      possible ⟨action, (c.answer s action).1⟩ ∧ inv (c.after s action).story) :
    post (c.complete x s).1 (c.complete x s).2.story ∧ inv (c.complete x s).2.story := by
  induction x generalizing s with
  | done a => exact ⟨hx, hs⟩
  | act action next ih =>
    obtain ⟨hanswer, hnext⟩ := hstep s action hs hx.1
    exact ih _ (s := c.after s action) (hx.2 _ hanswer) hnext

end SharedSurroundings

end Outbox.Relay
