import Outbox.Broker.Refusal
import Outbox.Metrics.Registry
import Outbox.Store.Request
/-! What a relay does, as a program of actions: it asks the store, looks at the clock, has messages
delivered and counts. How an action is answered is left open, so that a program can be run in a world of
any kind, interleaved with other programs, or followed step by step. -/

namespace Outbox.Relay

/-- A message on its way to a topic. -/
structure Parcel where
  topic : String
  key : String
  body : String
deriving DecidableEq, Repr, Inhabited

/-- What became of a parcel within its time limit. -/
inductive Delivery
  | delivered
  | refused (refusal : Broker.Refusal)
  | timedOut
  | crashed (text : String)
deriving DecidableEq, Repr, Inhabited

inductive Action
  | ask (r : Request)
  | now
  /-- Milliseconds passed, on a clock that is never set. -/
  | elapsed
  /-- Delivers parcels side by side, each within the limit, and waits for the last. The durations are
  counted if they are measured. -/
  | deliver (measured : Bool) (limit : Span) (parcels : List Parcel)
  | note (m : Measurement)

/-- What an action answers; a delivery answers for each parcel in order. -/
abbrev Action.Answer : Action → Type
  | .ask r => Except Interrupt r.Answer
  | .now => Instant
  | .elapsed => Nat
  | .deliver _ _ _ => List Delivery
  | .note _ => Unit

/-- A finished result, or an action and what to do with its answer. -/
inductive Program (α : Type) where
  | done (result : α)
  | act (action : Action) (next : action.Answer → Program α)

namespace Program

def bind {α β : Type} (p : Program α) (f : α → Program β) : Program β :=
  match p with
  | done a => f a
  | act action next => act action fun answer => (next answer).bind f

instance : Monad Program where
  pure := done
  bind := bind

def perform (action : Action) : Program action.Answer := act action done

/-- A program that may be interrupted. -/
abbrev Interruptible (α : Type) := ExceptT Interrupt Program α

def ask (r : Request) : Interruptible r.Answer := ExceptT.mk (perform (.ask r))

def now : Program Instant := perform .now

def elapsed : Program Nat := perform .elapsed

def deliver (measured : Bool) (limit : Span) (parcels : List Parcel) : Program (List Delivery) :=
  perform (.deliver measured limit parcels)

def note (m : Measurement) : Program Unit := perform (.note m)

def noteAll : List Measurement → Program Unit
  | [] => pure ()
  | m :: rest => do
    note m
    noteAll rest

end Program

end Outbox.Relay
