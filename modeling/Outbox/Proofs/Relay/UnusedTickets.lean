import Mathlib.Data.List.Forall2
import Mathlib.Data.Multiset.AddSub
import Outbox.Proofs.Relay.Tickets

/-! The tickets that a program has not used yet. It uses one up with each parcel that it posts, and gets two for each
row that a claim returns: one for the message of the row and one for a dead letter, both of the attempt that the claim
counts. A job gets by with those of its own claim, whatever it is answered: it posts the message of a row once at most,
and a dead letter of it once at most. -/

namespace Outbox.Relay

/-- The tickets of one kind for rows. -/
def tickets (kind : Int → Int → Ticket) (rows : List Row) : Multiset Ticket :=
  ↑(rows.map fun r => kind r.id r.attempt)

theorem tickets_append (kind : Int → Int → Ticket) (rows others : List Row) :
    tickets kind (rows ++ others) = tickets kind rows + tickets kind others := by
  rw [tickets, List.map_append]
  rfl

theorem tickets_cons (kind : Int → Int → Ticket) (row : Row) (rest : List Row) :
    tickets kind (row :: rest) = {kind row.id row.attempt} + tickets kind rest := rfl

theorem tickets_le {rows others : List Row} (h : rows.Sublist others) (kind : Int → Int → Ticket) :
    tickets kind rows ≤ tickets kind others :=
  Multiset.coe_le.2 (h.map _).subperm

/-- The tickets that an answer brings. -/
def Exchange.income (exchange : Exchange) : Multiset Ticket :=
  tickets .message exchange.claimed + tickets .letter exchange.claimed

def Action.parcels : Action → List Parcel
  | .deliver _ _ parcels => parcels
  | .ask _ | .now | .elapsed | .note _ => []

variable {α β : Type} {relay : Relay} {unused frame : Multiset Ticket}

namespace Program

/-- The program has a ticket for each parcel that it posts, if it starts with these; a condition holds of its result
and the tickets that are left. -/
def Affords (relay : Relay) (post : α → Multiset Ticket → Prop) : Program α → Multiset Ticket → Prop
  | done a, unused => ∃ left ≤ unused, post a left
  | act action next, unused => ∃ (spent : List Ticket) (left : Multiset Ticket),
      List.Forall₂ relay.Sends action.parcels spent ∧ ↑spent + left ≤ unused ∧
      ∀ answer, (next answer).Affords relay post (left + Exchange.income ⟨action, answer⟩)

/-- A condition on the result is only asked for if the program was not interrupted. -/
def Interruptible.Affords (relay : Relay) (post : α → Multiset Ticket → Prop) (x : Interruptible α)
    (unused : Multiset Ticket) : Prop :=
  Program.Affords relay (fun result left => ∀ a, result = .ok a → post a left) x.run unused

namespace Affords

variable {post : α → Multiset Ticket → Prop} {x : Program α}

theorem pure {a : α} (h : post a unused) : (Pure.pure a : Program α).Affords relay post unused := ⟨unused, le_rfl, h⟩

/-- More tickets do no harm. -/
theorem mono {unused' : Multiset Ticket} (hx : x.Affords relay post unused) (h : unused ≤ unused') :
    x.Affords relay post unused' := by
  cases x with
  | done a =>
    obtain ⟨left, hleft, hpost⟩ := hx
    exact ⟨left, hleft.trans h, hpost⟩
  | act action next =>
    obtain ⟨spent, left, hsends, hspent, hnext⟩ := hx
    exact ⟨spent, left, hsends, hspent.trans h, hnext⟩

theorem imp {post' : α → Multiset Ticket → Prop} (hx : x.Affords relay post unused)
    (h : ∀ a left, post a left → post' a left) : x.Affords relay post' unused := by
  induction x generalizing unused with
  | done a =>
    obtain ⟨left, hleft, hpost⟩ := hx
    exact ⟨left, hleft, h a left hpost⟩
  | act action next ih =>
    obtain ⟨spent, left, hsends, hspent, hnext⟩ := hx
    exact ⟨spent, left, hsends, hspent, fun answer => ih answer (hnext answer)⟩

theorem bind {f : α → Program β} {post' : β → Multiset Ticket → Prop} (hx : x.Affords relay post unused)
    (hf : ∀ a left, post a left → (f a).Affords relay post' left) : (x >>= f).Affords relay post' unused := by
  induction x generalizing unused with
  | done a =>
    obtain ⟨left, hleft, hpost⟩ := hx
    exact (hf a left hpost).mono hleft
  | act action next ih =>
    obtain ⟨spent, left, hsends, hspent, hnext⟩ := hx
    exact ⟨spent, left, hsends, hspent, fun answer => ih answer (hnext answer)⟩

/-- An action that posts nothing costs nothing. -/
theorem perform {action : Action} (h : action.parcels = []) (unused : Multiset Ticket) :
    (Program.perform action).Affords relay (fun answer left => left = unused + Exchange.income ⟨action, answer⟩)
      unused := by
  refine ⟨[], unused, ?_, ?_, fun answer => ⟨_, le_rfl, rfl⟩⟩
  · rw [h]
    exact .nil
  · rw [Multiset.coe_nil, Multiset.zero_add]

theorem perform_free {action : Action} (h : action.parcels = []) (hincome : ∀ answer, Exchange.income ⟨action, answer⟩ = 0)
    (unused : Multiset Ticket) : (Program.perform action).Affords relay (fun _ left => left = unused) unused :=
  (perform h unused).imp fun answer left hleft => by rw [hleft, hincome, Multiset.add_zero]

theorem deliver {parcels : List Parcel} {spent : List Ticket} (h : List.Forall₂ relay.Sends parcels spent)
    (measured : Bool) (limit : Span) (frame : Multiset Ticket) :
    (Program.deliver measured limit parcels).Affords relay (fun _ left => left = frame) (↑spent + frame) :=
  ⟨spent, frame, h, le_rfl, fun _ => ⟨frame, le_of_eq (Multiset.add_zero _).symm, rfl⟩⟩

end Affords

namespace Interruptible.Affords

variable {post : α → Multiset Ticket → Prop} {x : Interruptible α}

theorem pure {a : α} (h : post a unused) : (Pure.pure a : Interruptible α).Affords relay post unused := by
  refine Program.Affords.pure ?_
  rintro _ ⟨⟩
  exact h

theorem throw (e : Interrupt) (unused : Multiset Ticket) :
    (throw e : Interruptible α).Affords relay post unused := Program.Affords.pure nofun

theorem lift {x : Program α} (hx : x.Affords relay post unused) :
    (liftM x : Interruptible α).Affords relay post unused :=
  hx.bind fun a left h => .pure (by
    rintro _ ⟨⟩
    exact h)

theorem ofExcept (result : Except Interrupt α) (unused : Multiset Ticket) :
    (liftM result : Interruptible α).Affords relay (fun _ left => left = unused) unused := by
  cases result with
  | ok a => exact .pure rfl
  | error e => exact .throw e unused

theorem mono {unused' : Multiset Ticket} (hx : x.Affords relay post unused) (h : unused ≤ unused') :
    x.Affords relay post unused' := Program.Affords.mono hx h

theorem bind {f : α → Interruptible β} {post' : β → Multiset Ticket → Prop} (hx : x.Affords relay post unused)
    (hf : ∀ a left, post a left → (f a).Affords relay post' left) : (x >>= f).Affords relay post' unused :=
  Program.Affords.bind hx fun
    | .ok a, left, h => hf a left (h a rfl)
    | .error _, _, _ => .pure nofun

/-- A mark costs nothing and brings nothing. -/
theorem mark {request : Request} (h : request.isMark) (unused : Multiset Ticket) :
    (Program.ask request).Affords relay (fun _ left => left = unused) unused := by
  refine (Program.Affords.perform_free rfl (fun result => ?_) unused).imp fun _ _ hleft _ _ => hleft
  cases request with
  | claim => cases h
  | save | markPublished | markFailed | markDead | counts => cases result <;> rfl

end Interruptible.Affords

end Program

open Program

/-! ### Jobs -/

theorem now_affords (unused : Multiset Ticket) : Program.now.Affords relay (fun _ left => left = unused) unused :=
  .perform_free rfl (fun _ => rfl) unused

theorem note_affords (m : Measurement) (unused : Multiset Ticket) :
    (Program.note m).Affords relay (fun _ left => left = unused) unused :=
  .perform_free rfl (fun _ => rfl) unused

theorem elapsed_affords (unused : Multiset Ticket) :
    Program.elapsed.Affords relay (fun _ left => left = unused) unused :=
  .perform_free rfl (fun _ => rfl) unused

theorem noteAll_affords (ms : List Measurement) (unused : Multiset Ticket) :
    (Program.noteAll ms).Affords relay (fun _ left => left = unused) unused := by
  induction ms with
  | nil => exact .pure rfl
  | cons m rest ih =>
    refine .bind (note_affords m unused) fun _ left hleft => ?_
    rw [hleft]
    exact ih

/-- Rows are as many tickets as their parcels need, or more. -/
theorem exists_sends (relay : Relay) (rows : List Row) :
    ∃ spent : List Ticket,
      List.Forall₂ relay.Sends
        ((rows.map fun row => (row, relay.publisher.parcel row)).filterMap Publisher.parcelOf?) spent ∧
      spent.Sublist (rows.map fun r => .message r.id r.attempt) := by
  induction rows with
  | nil => exact ⟨[], .nil, .slnil⟩
  | cons row rest ih =>
    obtain ⟨spent, hsends, hspent⟩ := ih
    cases hparcel : relay.publisher.parcel row with
    | error failure =>
      refine ⟨spent, ?_, hspent.cons _⟩
      simpa only [List.map_cons, hparcel, List.filterMap_cons, Publisher.parcelOf?] using hsends
    | ok parcel =>
      refine ⟨.message row.id row.attempt :: spent, ?_, hspent.cons_cons _⟩
      simp only [List.map_cons, hparcel, List.filterMap_cons, Publisher.parcelOf?]
      exact .cons (.message hparcel) hsends

theorem publishChunk_affords (rows : List Row) (frame : Multiset Ticket) :
    (relay.publisher.publishChunk rows).Affords relay
      (fun outcomes left => outcomes.map Prod.fst = rows ∧ left = frame) (tickets .message rows + frame) := by
  have hdeliver : (do
      let deliveries ← Program.deliver relay.publisher.measured relay.publisher.limit
        ((rows.map fun row => (row, relay.publisher.parcel row)).filterMap Publisher.parcelOf?)
      return relay.publisher.outcomes (rows.map fun row => (row, relay.publisher.parcel row)) deliveries
        : Program _).Affords relay (fun outcomes left => outcomes.map Prod.fst = rows ∧ left = frame)
      (tickets .message rows + frame) := by
    obtain ⟨spent, hsends, hspent⟩ := exists_sends relay rows
    have hle : (↑spent : Multiset Ticket) + frame ≤ tickets .message rows + frame :=
      Multiset.add_le_add_right (Multiset.coe_le.2 hspent.subperm)
    refine .bind ((Affords.deliver hsends _ _ frame).mono hle) fun deliveries left hleft => .pure ⟨?_, hleft⟩
    rw [Publisher.map_fst_outcomes, List.map_map]
    exact List.map_id rows
  rw [Publisher.publishChunk]
  split
  · refine .bind (noteAll_affords _ _) fun _ left hleft => ?_
    rw [hleft]
    exact hdeliver
  · exact hdeliver

theorem publishChunks_affords (chunks : List (List Row)) (frame : Multiset Ticket) :
    (relay.publisher.publishChunks chunks).Affords relay
      (fun outcomes left => outcomes.map Prod.fst = chunks.flatten ∧ left = frame)
      (tickets .message chunks.flatten + frame) := by
  induction chunks with
  | nil => exact Affords.mono (.pure ⟨rfl, rfl⟩) (Multiset.le_add_left _ _)
  | cons chunk rest ih =>
    rw [Publisher.publishChunks, List.flatten_cons, tickets_append, Multiset.add_assoc]
    refine .bind (publishChunk_affords chunk _) ?_
    rintro first _ ⟨hfirst, rfl⟩
    refine .bind ih ?_
    rintro others left ⟨hothers, hleft⟩
    refine .pure ⟨?_, hleft⟩
    rw [List.map_append, hfirst, hothers]

theorem process_affords (rows : List Row) (frame : Multiset Ticket) :
    (relay.publisher.process rows).Affords relay
      (fun batch left => (batch.failed.map FailedRow.row).Sublist rows ∧ left = frame) (tickets .message rows + frame) := by
  have hflatten := flatten_chunks relay.publisher.chunk rows
  rw [Publisher.process]
  refine .bind ((publishChunks_affords (chunks relay.publisher.chunk rows) frame).mono (by rw [hflatten])) ?_
  rintro outcomes left ⟨hrows, hleft⟩
  refine .pure ⟨?_, hleft⟩
  rw [← hflatten, ← hrows]
  exact Batch.failed_sublist outcomes

theorem recordDelivered_affords (ids : List Int) (report : Report) (unused : Multiset Ticket) :
    (recordDelivered ids report).Affords relay (fun _ left => left = unused) unused := by
  rw [recordDelivered]
  split
  · exact .pure rfl
  · refine .bind (.lift (now_affords unused)) ?_
    rintro now _ rfl
    refine .bind (.mark rfl _) ?_
    rintro marked _ rfl
    dsimp only
    split
    · exact .bind (.throw _ _) fun _ _ h => h
    · exact .pure rfl

/-- Giving up a row takes the ticket for its dead letter. -/
theorem bury_affords (failed : FailedRow) (delay : Span) (frame : Multiset Ticket) :
    (relay.graveyard.bury failed delay).Affords relay (fun _ left => left = frame)
      ({.letter failed.row.id failed.row.attempt} + frame) := by
  rw [Graveyard.bury]
  refine .bind (.lift (now_affords _)) ?_
  rintro now _ rfl
  have hsends : List.Forall₂ relay.Sends [relay.graveyard.letter failed now]
      [.letter failed.row.id failed.row.attempt] := .cons (.letter failed now) .nil
  refine .bind (.lift (Affords.deliver hsends _ _ frame)) ?_
  rintro deliveries _ rfl
  refine .bind (.ofExcept _ _) ?_
  rintro problem _ rfl
  split <;>
  · refine .bind (.lift (now_affords _)) ?_
    rintro time _ rfl
    refine .bind (.mark rfl _) ?_
    rintro marked _ rfl
    exact .pure rfl

theorem recordFailed_affords (failed : FailedRow) (report : Report) (frame : Multiset Ticket) :
    (relay.recordFailed failed report).Affords relay (fun _ left => left = frame)
      ({.letter failed.row.id failed.row.attempt} + frame) := by
  rw [recordFailed]
  refine .bind (.lift (note_affords _ _)) ?_
  rintro _ _ rfl
  split
  · refine Interruptible.Affords.mono ?_ (Multiset.le_add_left frame _)
    refine .bind (.lift (now_affords _)) ?_
    rintro time _ rfl
    refine .bind (.mark rfl _) ?_
    rintro marked _ rfl
    exact .pure rfl
  · refine .bind (bury_affords failed _ frame) ?_
    rintro burial _ rfl
    exact .pure rfl

theorem recordAllFailed_affords (failures : List FailedRow) (report : Report) (frame : Multiset Ticket) :
    (relay.recordAllFailed failures report).Affords relay (fun _ left => left = frame)
      (tickets .letter (failures.map FailedRow.row) + frame) := by
  induction failures generalizing report with
  | nil => exact Interruptible.Affords.mono (.pure rfl) (Multiset.le_add_left _ _)
  | cons failed rest ih =>
    rw [recordAllFailed, List.map_cons, tickets_cons, Multiset.add_assoc]
    refine .bind (recordFailed_affords failed report _) ?_
    rintro report' _ rfl
    exact ih report'

/-- Rows are settled with two tickets for each. -/
theorem work_affords (rows : List Row) :
    (relay.work rows).Affords relay (fun _ _ => True) (tickets .message rows + tickets .letter rows) := by
  rw [work]
  split
  · exact .pure trivial
  · refine .bind (.lift (process_affords rows _)) ?_
    rintro batch _ ⟨hfailed, rfl⟩
    refine .bind (recordDelivered_affords _ _ _) ?_
    rintro report _ rfl
    have hall : (relay.recordAllFailed batch.failed report).Affords relay (fun _ _ => True)
        (tickets .letter (batch.failed.map FailedRow.row) + 0) :=
      (recordAllFailed_affords batch.failed report 0).imp fun _ _ _ _ _ => trivial
    rw [Multiset.add_zero] at hall
    exact hall.mono (tickets_le hfailed .letter)

/-- A tick needs no tickets but those that its claim brings. -/
theorem tickAt_affords (relay : Relay) (now : Instant) : (relay.tickAt now).Affords relay (fun _ _ => True) 0 := by
  rw [tickAt_eq]
  refine Affords.bind (Affords.perform rfl 0) ?_
  rintro (e | rows) _ rfl
  · exact .pure nofun
  · rw [Multiset.zero_add]
    exact work_affords rows

theorem refreshCounts_affords (unused : Multiset Ticket) : refreshCounts.Affords relay (fun _ _ => True) unused := by
  have hask : (Program.perform (.ask .counts)).Affords relay (fun _ _ => True) unused :=
    (Affords.perform rfl unused).imp fun _ _ _ => trivial
  refine .bind hask ?_
  rintro (e | counts) _ _
  · cases e with
    | fault => exact .pure trivial
    | crash => exact .pure trivial
  · exact .bind (note_affords _ _) fun _ _ _ => .pure trivial

theorem runTick_affords (relay : Relay) (stats : Stats) :
    (relay.runTick stats).Affords relay (fun _ _ => True) 0 := by
  have htick : relay.tick.Affords relay (fun _ _ => True) 0 := by
    refine .bind (.lift (now_affords 0)) ?_
    rintro now _ rfl
    exact tickAt_affords relay now
  refine .bind (elapsed_affords 0) ?_
  rintro start _ rfl
  refine .bind htick fun result left _ => ?_
  cases result with
  | ok report =>
    exact .bind (note_affords _ _) fun _ _ _ =>
      .bind (elapsed_affords _) fun _ _ _ => .bind (note_affords _ _) fun _ _ _ =>
      .bind (refreshCounts_affords _) fun _ _ _ => .pure trivial
  | error e =>
    cases e with
    | crash text => exact .pure trivial
    | fault fault =>
      exact .bind (note_affords _ _) fun _ _ _ => .bind (refreshCounts_affords _) fun _ _ _ => .pure trivial

end Outbox.Relay
