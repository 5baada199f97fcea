import Outbox.Relay.Program

/-! What a program may be relied on to do, as long as it is answered as it may expect. The story of a run is what it
asked so far and what it was answered. A program abides by a rule if every action that it takes is allowed after the
story so far, whatever the possible answers are, and if a condition holds of its result and the whole story; an
interrupted program is held to a condition as well. A program obeys a rule if it abides by it however it is answered.
-/

namespace Outbox.Relay

/-- An action and its answer. -/
abbrev Exchange := (action : Action) × action.Answer

/-- The exchanges of a run, latest first. -/
abbrev Story := List Exchange

namespace Program

variable {α β : Type} {possible : Exchange → Prop} {allowed : Story → Action → Prop} {story : Story}

def Abides (possible : Exchange → Prop) (allowed : Story → Action → Prop) (post : α → Story → Prop) :
    Program α → Story → Prop
  | done a, story => post a story
  | act action next, story =>
    allowed story action ∧ ∀ answer, possible ⟨action, answer⟩ →
      (next answer).Abides possible allowed post (⟨action, answer⟩ :: story)

/-- What holds at the end of a program, interrupted or not. -/
def Interruptible.outcome (broken : Interrupt → Story → Prop) (post : α → Story → Prop) :
    Except Interrupt α → Story → Prop
  | .ok a, story => post a story
  | .error e, story => broken e story

def Interruptible.Abides (possible : Exchange → Prop) (allowed : Story → Action → Prop)
    (broken : Interrupt → Story → Prop) (post : α → Story → Prop) (x : Interruptible α) (story : Story) : Prop :=
  Program.Abides possible allowed (outcome broken post) x.run story

/-- The same if it may be answered in any way. -/
abbrev Obeys (allowed : Story → Action → Prop) (post : α → Story → Prop) (x : Program α) (story : Story) : Prop :=
  x.Abides (fun _ => True) allowed post story

/-- Nothing is asked of a program that was interrupted. -/
abbrev Interruptible.Obeys (allowed : Story → Action → Prop) (post : α → Story → Prop) (x : Interruptible α)
    (story : Story) : Prop :=
  x.Abides (fun _ => True) allowed (fun _ _ => True) post story

namespace Abides

variable {post : α → Story → Prop} {x : Program α}

theorem pure {a : α} (h : post a story) : (Pure.pure a : Program α).Abides possible allowed post story := h

theorem perform {action : Action} (h : allowed story action) :
    (Program.perform action).Abides possible allowed
      (fun answer s => possible ⟨action, answer⟩ ∧ s = ⟨action, answer⟩ :: story) story :=
  ⟨h, fun _ hanswer => ⟨hanswer, rfl⟩⟩

theorem imp {post' : α → Story → Prop} (hx : x.Abides possible allowed post story)
    (h : ∀ a s, post a s → post' a s) : x.Abides possible allowed post' story := by
  induction x generalizing story with
  | done a => exact h a story hx
  | act action next ih => exact ⟨hx.1, fun answer hanswer => ih answer (hx.2 answer hanswer)⟩

/-- A program that abides by a rule abides by a wider one. -/
theorem widen {allowed' : Story → Action → Prop} (hx : x.Abides possible allowed post story)
    (h : ∀ s action, allowed s action → allowed' s action) : x.Abides possible allowed' post story := by
  induction x generalizing story with
  | done a => exact hx
  | act action next ih => exact ⟨h _ _ hx.1, fun answer hanswer => ih answer (hx.2 answer hanswer)⟩

/-- What every allowed action keeps holds at the end of a program. -/
theorem keep {inv : Story → Prop} (hx : x.Abides possible allowed post story) (hs : inv story)
    (hstep : ∀ s action answer, inv s → allowed s action → inv (⟨action, answer⟩ :: s)) :
    x.Abides possible allowed (fun a s => post a s ∧ inv s) story := by
  induction x generalizing story with
  | done a => exact ⟨hx, hs⟩
  | act action next ih =>
    exact ⟨hx.1, fun answer hanswer => ih answer (hx.2 answer hanswer) (hstep _ _ answer hs hx.1)⟩

theorem bind {f : α → Program β} {post' : β → Story → Prop} (hx : x.Abides possible allowed post story)
    (hf : ∀ a s, post a s → (f a).Abides possible allowed post' s) :
    (x >>= f).Abides possible allowed post' story := by
  induction x generalizing story with
  | done a => exact hf a story hx
  | act action next ih => exact ⟨hx.1, fun answer hanswer => ih answer (hx.2 answer hanswer)⟩

/-- What was exchanged before stays in the story. -/
theorem suffix (hx : x.Abides possible allowed post story) :
    x.Abides possible allowed (fun a s => story <:+ s ∧ post a s) story := by
  induction x generalizing story with
  | done a => exact ⟨List.suffix_rfl, hx⟩
  | act action next ih =>
    exact ⟨hx.1, fun answer hanswer => (ih answer (hx.2 answer hanswer)).imp fun a s h =>
      ⟨(List.suffix_cons _ _).trans h.1, h.2⟩⟩

end Abides

namespace Interruptible.Abides

variable {broken : Interrupt → Story → Prop} {post : α → Story → Prop} {x : Interruptible α}

theorem pure {a : α} (h : post a story) :
    (Pure.pure a : Interruptible α).Abides possible allowed broken post story := h

theorem throw {e : Interrupt} (h : broken e story) :
    (throw e : Interruptible α).Abides possible allowed broken post story := h

theorem ofExcept {result : Except Interrupt α} (h : outcome broken post result story) :
    (liftM result : Interruptible α).Abides possible allowed broken post story := by
  cases result <;> exact h

theorem ask {r : Request} (h : allowed story (.ask r))
    (hbroken : ∀ e, possible ⟨.ask r, .error e⟩ → broken e (⟨.ask r, .error e⟩ :: story)) :
    (Program.ask r).Abides possible allowed broken
      (fun answer s => possible ⟨.ask r, .ok answer⟩ ∧ s = ⟨.ask r, .ok answer⟩ :: story) story :=
  ⟨h, fun
    | .ok _, hanswer => ⟨hanswer, rfl⟩
    | .error e, hanswer => hbroken e hanswer⟩

theorem lift {x : Program α} (hx : x.Abides possible allowed post story) :
    (liftM x : Interruptible α).Abides possible allowed broken post story :=
  hx.bind fun _ _ h => h

theorem imp {post' : α → Story → Prop} (hx : x.Abides possible allowed broken post story)
    (h : ∀ a s, post a s → post' a s) : x.Abides possible allowed broken post' story :=
  Program.Abides.imp hx fun
    | .ok a, s => h a s
    | .error _, _ => id

theorem bind {f : α → Interruptible β} {post' : β → Story → Prop}
    (hx : x.Abides possible allowed broken post story)
    (hf : ∀ a s, post a s → (f a).Abides possible allowed broken post' s) :
    (x >>= f).Abides possible allowed broken post' story :=
  Program.Abides.bind hx fun
    | .ok a, s, h => hf a s h
    | .error _, _, h => h

theorem suffix (hx : x.Abides possible allowed broken post story) :
    x.Abides possible allowed broken (fun a s => story <:+ s ∧ post a s) story :=
  (Program.Abides.suffix hx).imp fun
    | .ok _, _, h => h
    | .error _, _, h => h.2

end Interruptible.Abides

theorem Obeys.perform {action : Action} (h : allowed story action) :
    (Program.perform action).Obeys allowed (fun answer s => s = ⟨action, answer⟩ :: story) story :=
  ⟨h, fun _ _ => rfl⟩

theorem Interruptible.Obeys.ask {r : Request} (h : allowed story (.ask r)) :
    (Program.ask r).Obeys allowed (fun answer s => s = ⟨.ask r, .ok answer⟩ :: story) story :=
  (Interruptible.Abides.ask h fun _ _ => trivial).imp fun _ _ => And.right

end Program

end Outbox.Relay
