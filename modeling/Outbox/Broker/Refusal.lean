/-! Why a broker did not take a message. -/

namespace Outbox.Broker

inductive Refusal
  /-- The broker or the network cannot be reached. -/
  | unavailable (text : String)
  /-- Delivery failed for a reason that may pass. -/
  | notDelivered (text : String)
  | invalidDestination (topic reason : String)
  /-- The broker will not take this message later either. -/
  | rejected (text : String)
deriving DecidableEq, Repr, Inhabited

namespace Refusal

def message : Refusal → String
  | unavailable text => "Broker unavailable: " ++ text
  | notDelivered text => "Delivery failed: " ++ text
  | invalidDestination topic reason => "Invalid destination '" ++ topic ++ "': " ++ reason
  | rejected text => "Message rejected: " ++ text

def isTransient : Refusal → Bool
  | unavailable _ | notDelivered _ => true
  | _ => false

end Refusal

end Outbox.Broker
