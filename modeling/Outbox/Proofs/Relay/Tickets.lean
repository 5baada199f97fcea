import Outbox.Proofs.Json.Writing
import Outbox.Proofs.Relay.Custody
import Outbox.Proofs.Relay.Evidence

/-! What tells the deliveries of a fleet apart. A parcel bears a ticket: whether it is a message or a dead letter, of
which event, and of which attempt, all of which can be read off its text. A claim hands out two tickets for each row
that it returns, and a job posts nothing but parcels that it has a ticket for, which it gives away with the parcel. -/

namespace Outbox

/-! ### Reading tickets -/

/-- The message or the dead letter of an event, for one of its attempts. -/
inductive Ticket
  | message (id attempt : Int)
  | letter (id attempt : Int)
deriving DecidableEq

namespace Ticket

def id : Ticket → Int
  | message id _ | letter id _ => id

def attempt : Ticket → Int
  | message _ attempt | letter _ attempt => attempt

end Ticket

namespace Message

/-- The members of a message up to its attempt. -/
def front (m : Message) : List (String × Json.Value) := [
  ("event_id", .number (.integer m.eventId)), ("event_version", .number (.integer m.version)),
  ("aggregate_type", .string m.aggregateType), ("aggregate_id", .string m.aggregateId), ("event_type", .string m.kind),
  ("occurred_at", momentValue m.occurredAt), ("attempt", .number (.integer m.attempt))]

def back (m : Message) : List (String × Json.Value) := [("headers", headersValue m.headers), ("payload", m.payload)]

theorem text_eq (m : Message) : m.text = (Json.Value.object (m.front ++ m.back)).write := rfl

theorem back_ne_nil (m : Message) : m.back ≠ [] := List.cons_ne_nil _ _

theorem length_front (m : Message) : m.front.length = 7 := rfl

theorem plain_front (m : Message) : ∀ member ∈ m.front, Json.Plain member.2 := by
  simp only [front, momentValue, List.forall_mem_cons]
  exact ⟨.integer _, .integer _, .string _, .string _, .string _, .string _, .integer _, List.forall_mem_nil _⟩

/-- The text of a message shows its event and its attempt. -/
theorem eq_of_text_eq {m m' : Message} (h : m.text = m'.text) : m.eventId = m'.eventId ∧ m.attempt = m'.attempt := by
  rw [text_eq, text_eq] at h
  have hlength : m.front.length = m'.front.length := m.length_front.trans m'.length_front.symm
  have hfront : m.front = m'.front :=
    Json.write_object_append_inj m.plain_front m'.plain_front hlength m.back_ne_nil m'.back_ne_nil h
  simp only [front, List.cons.injEq, Prod.mk.injEq, Json.Value.number.injEq, Json.Numeral.integer.injEq] at hfront
  exact ⟨hfront.1.2, hfront.2.2.2.2.2.2.1.2⟩

end Message

namespace DeadLetter

/-- The members of a dead letter up to its attempt. -/
def front (d : DeadLetter) : List (String × Json.Value) := [
  ("event_id", .number (.integer d.eventId)), ("aggregate_type", .string d.aggregateType),
  ("aggregate_id", .string d.aggregateId), ("event_type", .string d.kind),
  ("attempt_count", .number (.integer d.attempt))]

def back (d : DeadLetter) : List (String × Json.Value) := [
  ("error", .string d.cause), ("first_created_at", momentValue d.createdAt),
  ("dead_lettered_at", momentValue d.deadAt), ("headers", headersValue d.headers), ("raw_payload", .string d.payload)]

theorem text_eq (d : DeadLetter) : d.text = (Json.Value.object (d.front ++ d.back)).write := rfl

theorem back_ne_nil (d : DeadLetter) : d.back ≠ [] := List.cons_ne_nil _ _

theorem length_front (d : DeadLetter) : d.front.length = 5 := rfl

theorem plain_front (d : DeadLetter) : ∀ member ∈ d.front, Json.Plain member.2 := by
  simp only [front, List.forall_mem_cons]
  exact ⟨.integer _, .string _, .string _, .string _, .integer _, List.forall_mem_nil _⟩

/-- The text of a dead letter shows its event and its attempt. -/
theorem eq_of_text_eq {d d' : DeadLetter} (h : d.text = d'.text) :
    d.eventId = d'.eventId ∧ d.attempt = d'.attempt := by
  rw [text_eq, text_eq] at h
  have hlength : d.front.length = d'.front.length := d.length_front.trans d'.length_front.symm
  have hfront : d.front = d'.front :=
    Json.write_object_append_inj d.plain_front d'.plain_front hlength d.back_ne_nil d'.back_ne_nil h
  simp only [front, List.cons.injEq, Prod.mk.injEq, Json.Value.number.injEq, Json.Numeral.integer.injEq] at hfront
  exact ⟨hfront.1.2, hfront.2.2.2.2.1.2⟩

/-- The second members of messages and dead letters have different names. -/
theorem text_ne_message (d : DeadLetter) (m : Message) : d.text ≠ m.text := by
  intro h
  rw [text_eq, Message.text_eq, ← List.take_append_drop 2 d.front, ← List.take_append_drop 2 m.front,
    List.append_assoc, List.append_assoc] at h
  have hback : d.front.drop 2 ++ d.back ≠ [] := List.cons_ne_nil _ _
  have hback' : m.front.drop 2 ++ m.back ≠ [] := List.cons_ne_nil _ _
  have hfront : d.front.take 2 = m.front.take 2 :=
    Json.write_object_append_inj (fun member hmember => d.plain_front member (List.mem_of_mem_take hmember))
      (fun member hmember => m.plain_front member (List.mem_of_mem_take hmember)) rfl hback hback' h
  simp [front, Message.front] at hfront

end DeadLetter

namespace Relay

/-- The ticket that a parcel's text shows. -/
inductive Parcel.Bears (parcel : Parcel) : Ticket → Prop
  | message (m : Message) (h : parcel.body = m.text) : Bears parcel (.message m.eventId m.attempt)
  | letter (d : DeadLetter) (h : parcel.body = d.text) : Bears parcel (.letter d.eventId d.attempt)

/-- A parcel bears one ticket at most. -/
theorem Parcel.Bears.unique {parcel : Parcel} {a b : Ticket} (ha : parcel.Bears a) (hb : parcel.Bears b) : a = b := by
  cases ha with
  | message m h =>
    cases hb with
    | message m' h' =>
      obtain ⟨hid, hattempt⟩ := Message.eq_of_text_eq (h.symm.trans h')
      rw [hid, hattempt]
    | letter d h' => exact absurd (h'.symm.trans h) (d.text_ne_message m)
  | letter d h =>
    cases hb with
    | message m h' => exact absurd (h.symm.trans h') (d.text_ne_message m)
    | letter d' h' =>
      obtain ⟨hid, hattempt⟩ := DeadLetter.eq_of_text_eq (h.symm.trans h')
      rw [hid, hattempt]

/-- How a relay comes to post a parcel with a ticket: it is the message of a row, or a dead letter of one. -/
inductive Sends (relay : Relay) : Parcel → Ticket → Prop
  | message {row : Row} {parcel : Parcel} (h : relay.publisher.parcel row = .ok parcel) :
    Sends relay parcel (.message row.id row.attempt)
  | letter (failed : FailedRow) (now : Instant) :
    Sends relay (relay.graveyard.letter failed now) (.letter failed.row.id failed.row.attempt)

theorem Sends.bears {relay : Relay} {parcel : Parcel} {ticket : Ticket} (h : Sends relay parcel ticket) :
    parcel.Bears ticket := by
  cases h with
  | @message row _ hparcel =>
    obtain ⟨m, topic, hmessage, -, rfl⟩ := Publisher.parcel_eq_ok hparcel
    have hid := Message.eventId_of_ofRow hmessage
    have hattempt := Message.attempt_of_ofRow hmessage
    rw [← hid, ← hattempt]
    exact .message m rfl
  | letter failed now => exact .letter (DeadLetter.ofRow failed.row failed.failure.message now) rfl

end Relay

end Outbox
