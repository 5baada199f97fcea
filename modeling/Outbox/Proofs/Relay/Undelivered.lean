import Outbox.Proofs.Relay.Posting
import Outbox.Relay.Burial

/-! What is said of a delivery that did not succeed. An event is not delivered because its payload is not JSON, because
its aggregate type has no topic, or because of what became of its one post; each has a text, and only some of them may
pass before another attempt. A dead letter has a topic and a body, so it fails only by what became of its post. -/

namespace Outbox

/-- Why no topic can be derived from an aggregate type. -/
inductive Topic.Lacking (lead aggregateType : String) : String → Prop
  | untyped (h : aggregateType = "") : Lacking lead aggregateType "empty aggregate type"
  | tooLong (htype : aggregateType ≠ "") (h : 249 < (name lead aggregateType).utf8ByteSize) :
    Lacking lead aggregateType "topic name too long"
  | badCharacter (htype : aggregateType ≠ "") (hlength : (name lead aggregateType).utf8ByteSize ≤ 249)
    (h : ∃ c ∈ (name lead aggregateType).toList, ¬(c.isAlphanum ∨ c = '.' ∨ c = '_' ∨ c = '-')) :
    Lacking lead aggregateType "topic may only contain [a-zA-Z0-9._-]"

theorem Topic.lacking_of_resolve {lead aggregateType : String} {e : Fault} (h : resolve lead aggregateType = .error e) :
    Lacking lead aggregateType e.reason := by
  rw [resolve] at h
  split at h
  · next hempty =>
    cases h
    exact .untyped (String.isEmpty_iff.1 hempty)
  · next htype =>
    rw [String.isEmpty_iff] at htype
    dsimp only at h
    split at h
    · next hlong =>
      cases h
      exact .tooLong htype hlong
    · next hlength =>
      split at h
      · cases h
      · next hbad =>
        cases h
        refine .badCharacter htype (Nat.le_of_not_lt hlength) ?_
        simpa [isAllowed, and_assoc] using hbad

namespace Relay

/-- Why the event of a row was not delivered, by what was posted for the row: whether another attempt may succeed, and
the text of the error. -/
inductive Publisher.Undelivered (p : Publisher) (row : Row) :
    (posts : List (Parcel × Delivery)) → (transient : Bool) → (text : String) → Prop
  | unreadable {e : Json.ReadError} (h : Json.parse row.event.payload = .error e) :
    p.Undelivered row [] false ("Serialization failed: " ++ e.message)
  | unaddressed {payload : Json.Value} {reason : String} (hpayload : Json.parse row.event.payload = .ok payload)
    (h : Topic.Lacking p.topicLead row.event.aggregateType reason) :
    p.Undelivered row [] false ("Invalid destination: " ++
      ("Cannot derive topic from aggregate type '" ++ row.event.aggregateType ++ "': " ++ reason))
  | timedOut (parcel : Parcel) :
    p.Undelivered row [(parcel, .timedOut)] true ("Publish timed out after " ++ p.limit.describe)
  | unavailable (parcel : Parcel) (text : String) :
    p.Undelivered row [(parcel, .refused (.unavailable text))] true ("Broker unavailable: " ++ text)
  | notTaken (parcel : Parcel) (text : String) :
    p.Undelivered row [(parcel, .refused (.notDelivered text))] true ("Delivery failed: " ++ text)
  | misdirected (parcel : Parcel) (topic reason : String) :
    p.Undelivered row [(parcel, .refused (.invalidDestination topic reason))] false
      ("Invalid destination: " ++ (topic ++ ": " ++ reason))
  | rejected (parcel : Parcel) (text : String) :
    p.Undelivered row [(parcel, .refused (.rejected text))] false ("Message rejected: " ++ text)
  | crashed (parcel : Parcel) (text : String) :
    p.Undelivered row [(parcel, .crashed text)] true
      ("Publish task failed: " ++ ("task N panicked with message " ++ Text.quoted text))

theorem Publisher.Undelivered.not_delivered {p : Publisher} {row : Row} {posts : List (Parcel × Delivery)}
    {transient : Bool} {text : String} (h : p.Undelivered row posts transient text) (parcel : Parcel) :
    posts ≠ [(parcel, .delivered)] := by
  cases h <;> simp

/-- Why a dead letter was not delivered. -/
inductive Graveyard.Undelivered (g : Graveyard) : Delivery → (text : String) → Prop
  | timedOut : g.Undelivered .timedOut ("dead-letter publish timed out after " ++ g.limit.describe)
  | unavailable (text : String) : g.Undelivered (.refused (.unavailable text)) ("Broker unavailable: " ++ text)
  | notTaken (text : String) : g.Undelivered (.refused (.notDelivered text)) ("Delivery failed: " ++ text)
  | misdirected (topic reason : String) :
    g.Undelivered (.refused (.invalidDestination topic reason)) ("Invalid destination '" ++ topic ++ "': " ++ reason)
  | rejected (text : String) : g.Undelivered (.refused (.rejected text)) ("Message rejected: " ++ text)

theorem Graveyard.undelivered_of_problem {g : Graveyard} {delivery : Delivery} {problem : String}
    (h : g.problem delivery = .ok (some problem)) : g.Undelivered delivery problem := by
  cases delivery with
  | delivered | crashed => cases h
  | timedOut =>
    cases h
    exact .timedOut
  | refused refusal =>
    cases h
    cases refusal with
    | unavailable text => exact .unavailable text
    | notDelivered text => exact .notTaken text
    | invalidDestination topic reason => exact .misdirected topic reason
    | rejected text => exact .rejected text

namespace Publisher

variable {p : Publisher} {row : Row} {failure : Failure}

/-- A row has no parcel if its payload is not JSON, or else if its aggregate type has no topic. -/
theorem parcel_eq_error (h : p.parcel row = .error failure) :
    (∃ e, Message.ofRow row = .error e ∧ failure = .unreadable e.message) ∨
      ∃ message e, Message.ofRow row = .ok message ∧
        Topic.resolve p.topicLead row.event.aggregateType = .error e ∧
        failure = .noDestination (e.message row.event.aggregateType) := by
  rw [parcel] at h
  cases hmessage : Message.ofRow row with
  | error e =>
    rw [hmessage] at h
    cases h
    exact .inl ⟨e, rfl, rfl⟩
  | ok message =>
    rw [hmessage] at h
    cases htopic : Topic.resolve p.topicLead row.event.aggregateType with
    | error e =>
      rw [htopic] at h
      cases h
      exact .inr ⟨message, e, rfl, rfl, rfl⟩
    | ok topic =>
      rw [htopic] at h
      cases h

theorem undelivered_of_failureOf (parcel : Parcel) {delivery : Delivery} (h : p.failureOf delivery = some failure) :
    p.Undelivered row [(parcel, delivery)] failure.isTransient failure.message := by
  cases delivery with
  | delivered => cases h
  | timedOut =>
    cases h
    exact .timedOut parcel
  | crashed text =>
    cases h
    exact .crashed parcel text
  | refused refusal =>
    cases h
    cases refusal with
    | unavailable text => exact .unavailable parcel text
    | notDelivered text => exact .notTaken parcel text
    | invalidDestination topic reason => exact .misdirected parcel topic reason
    | rejected text => exact .rejected parcel text

end Publisher

/-- What a failure says of the sending that it is of. -/
theorem Sending.undelivered {p : Publisher} {failure : Failure} (sending : Sending p)
    (h : sending.failure = some failure) :
    p.Undelivered sending.row sending.posts failure.isTransient failure.message := by
  obtain ⟨row, posts, result, hsent⟩ := sending
  cases hsent with
  | posted delivery => exact Publisher.undelivered_of_failureOf _ h
  | unaddressed hparcel =>
    cases h
    rcases Publisher.parcel_eq_error hparcel with ⟨e, hmessage, rfl⟩ | ⟨message, e, hmessage, htopic, rfl⟩
    · exact .unreadable (Message.parse_of_ofRow_error hmessage)
    · obtain ⟨payload, hpayload, -⟩ := Message.exists_of_ofRow hmessage
      exact .unaddressed hpayload (Topic.lacking_of_resolve htopic)

end Relay

end Outbox
