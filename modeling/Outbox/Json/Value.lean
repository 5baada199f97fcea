import Outbox.Decimal.Double
/-! JSON values. In an object that was read the members stand in the order of their names and no name
occurs twice; one that is made to be written has them in the order in which they are written. -/

namespace Outbox.Json

/-- A number: an integer of at most 64 bits, or a double. -/
inductive Numeral
  | integer (n : Int)
  | double (x : Double)
deriving DecidableEq, Repr, Inhabited

inductive Value
  | null
  | bool (b : Bool)
  | number (n : Numeral)
  | string (s : String)
  | array (items : List Value)
  | object (members : List (String × Value))
deriving Repr, Inhabited, BEq

def Value.ofInt (n : Int) : Value := .number (.integer n)

/-- Drops each entry that is followed by one of the same name. -/
def dropShadowed {α : Type} : List (String × α) → List (String × α)
  | [] => []
  | (k, v) :: rest =>
    if rest.head?.any (fun next => next.1 == k) then dropShadowed rest
    else (k, v) :: dropShadowed rest

/-- Entries in the order of their names; of those with one name the last stays. -/
def sortEntries {α : Type} (entries : List (String × α)) : List (String × α) :=
  dropShadowed (entries.mergeSort fun a b => !decide (b.1 < a.1))

end Outbox.Json
