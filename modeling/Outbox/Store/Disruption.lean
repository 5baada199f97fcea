import Outbox.Store.Request
/-! A store some of whose calls fail before they reach it, as a list of disruptions says. -/

namespace Outbox

/-- The calls of a store, by what they ask for. -/
inductive Method
  | save
  | claim
  | markPublished
  | markFailed
  | markDead
  | counts
deriving DecidableEq, Repr, Inhabited

def Method.ofName? (s : String) : Option Method :=
  [("save", save), ("claim", claim), ("mark_published", markPublished), ("mark_failed", markFailed),
    ("mark_dead", markDead), ("counts", counts)].lookup s

def Request.method : Request → Method
  | .save _ => .save
  | .claim _ _ _ _ => .claim
  | .markPublished _ _ => .markPublished
  | .markFailed _ _ _ _ => .markFailed
  | .markDead _ _ _ => .markDead
  | .counts => .counts

/-- Calls of a method that fail: one of them, counted from 1, or all. -/
structure Disruption where
  method : Method
  nth : Option Nat := none
  fault : StoreFault
deriving DecidableEq, Repr, Inhabited

namespace Disruption

/-- The fault of a call, by the first disruption that covers it. -/
def faultOf (disruptions : List Disruption) (method : Method) (number : Nat) : Option StoreFault :=
  (disruptions.find? fun d => d.method == method && d.nth.all (· == number)).map (·.fault)

/-- A store and the calls made of it so far, by method. -/
structure State (σ : Type) where
  inner : σ
  calls : List Method := []

def State.number {σ : Type} (s : State σ) (m : Method) : Nat := s.calls.count m + 1

def answer {σ : Type} (store : Store σ) (disruptions : List Disruption) (r : Request) (s : State σ) :
    Except Interrupt r.Answer × State σ :=
  let counted : State σ := { s with calls := r.method :: s.calls }
  match faultOf disruptions r.method (s.number r.method) with
  | some fault => (.error (.fault fault), counted)
  | none =>
    let (result, inner) := store.answer r s.inner
    (result, { counted with inner := inner })

def store {σ : Type} (inner : Store σ) (disruptions : List Disruption) : Store (State σ) :=
  ⟨answer inner disruptions⟩

end Disruption

end Outbox
