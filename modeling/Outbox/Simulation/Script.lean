import Outbox.Relay.Program
/-! A broker that follows a script: rules that say how long a delivery takes and how it comes out. -/

namespace Outbox.Simulation

open Relay (Parcel Delivery)

/-- How a delivery ends that is given the time. -/
inductive Ending
  | accept
  | refuse (refusal : Broker.Refusal)
  | crash (text : String)
deriving DecidableEq, Repr, Inhabited

structure Rule where
  /-- The topic that the rule is for; none for all. -/
  topic : Option String := none
  key : Option String := none
  /-- How often the rule still applies; none for always. -/
  uses : Option Nat := none
  /-- Milliseconds until the delivery ends. -/
  delay : Nat := 0
  /-- Rows that are marked as published in the store just before the end, by somebody else. -/
  overtaken : List Int := []
  ending : Ending := .accept
deriving DecidableEq, Repr, Inhabited

/-- The rule of a delivery that no rule is for. -/
def Rule.plain : Rule := {}

def Rule.covers (r : Rule) (p : Parcel) : Bool :=
  r.uses.all (· != 0) && r.topic.all (· == p.topic) && r.key.all (· == p.key)

/-- The rule once more used. -/
def Rule.used (r : Rule) : Rule := { r with uses := r.uses.map (· - 1) }

/-- The first rule that covers a parcel, and the rules after that use. -/
def chooseRule (p : Parcel) : List Rule → Rule × List Rule
  | [] => (.plain, [])
  | r :: rest =>
    if r.covers p then (r, r.used :: rest)
    else
      let (chosen, rest) := chooseRule p rest
      (chosen, r :: rest)

def Ending.delivery : Ending → Delivery
  | .accept => .delivered
  | .refuse refusal => .refused refusal
  | .crash text => .crashed text

end Outbox.Simulation
