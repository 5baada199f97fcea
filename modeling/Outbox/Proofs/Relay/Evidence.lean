import Outbox.Proofs.Relay.Conduct
import Outbox.Relay.Tick

/-! What a tick has in hand when it records an outcome. It marks a row as published only after the row's
message was delivered in time, and as dead only after a dead letter of it was; and it only marks rows that a
claim of its own returned. -/

namespace Outbox.Relay

open Program

variable {story s : Story} {relay : Relay} {row : Row} {rows : List Row}

/-! ### Evidence -/

/-- A claim returned the row. -/
def Claimed (story : Story) (row : Row) : Prop :=
  ∃ p limit now stuck rows, (⟨.ask (.claim p limit now stuck), .ok rows⟩ : Exchange) ∈ story ∧ row ∈ rows

/-- A parcel was delivered under a time limit. -/
def Acknowledged (story : Story) (limit : Span) (parcel : Parcel) : Prop :=
  ∃ measured parcels deliveries, (⟨.deliver measured limit parcels, deliveries⟩ : Exchange) ∈ story ∧
    (parcel, .delivered) ∈ parcels.zip deliveries

/-- The message of a claimed row was delivered. -/
def Published (relay : Relay) (story : Story) (id : Int) : Prop :=
  ∃ row parcel, Claimed story row ∧ row.id = id ∧ relay.publisher.parcel row = .ok parcel ∧
    Acknowledged story relay.publisher.limit parcel

/-- A dead letter of a claimed row was delivered. -/
def Buried (relay : Relay) (story : Story) (id : Int) : Prop :=
  ∃ failed now, Claimed story failed.row ∧ failed.row.id = id ∧
    Acknowledged story relay.graveyard.limit (relay.graveyard.letter failed now)

/-- What a relay may do: it saves nothing, and marks no row as published or dead without evidence. -/
def Warranted (relay : Relay) (story : Story) : Action → Prop
  | .ask (.save _) => False
  | .ask (.markPublished ids _) => ∀ id ∈ ids, Published relay story id
  | .ask (.markDead id _ _) => Buried relay story id
  | _ => True

theorem Claimed.mono (h : Claimed story row) (hs : story <:+ s) : Claimed s row := by
  obtain ⟨p, limit, now, stuck, rows, hmem, hrow⟩ := h
  exact ⟨p, limit, now, stuck, rows, hs.subset hmem, hrow⟩

theorem Acknowledged.mono {limit : Span} {parcel : Parcel} (h : Acknowledged story limit parcel)
    (hs : story <:+ s) : Acknowledged s limit parcel := by
  obtain ⟨measured, parcels, deliveries, hmem, hparcel⟩ := h
  exact ⟨measured, parcels, deliveries, hs.subset hmem, hparcel⟩

theorem Published.mono {id : Int} (h : Published relay story id) (hs : story <:+ s) : Published relay s id := by
  obtain ⟨row, parcel, hrow, hid, hparcel, hack⟩ := h
  exact ⟨row, parcel, hrow.mono hs, hid, hparcel, hack.mono hs⟩

/-! ### Delivering a batch -/

namespace Publisher

variable {p : Publisher}

/-- A row that has a parcel has a message and a topic. -/
theorem parcel_eq_ok {parcel : Parcel} (h : p.parcel row = .ok parcel) :
    ∃ message topic, Message.ofRow row = .ok message ∧
      Topic.resolve p.topicLead row.event.aggregateType = .ok topic ∧
      parcel = ⟨topic, row.event.aggregateId, message.text⟩ := by
  rw [Publisher.parcel] at h
  cases hmessage : Message.ofRow row with
  | error e => rw [hmessage] at h; cases h
  | ok message =>
    cases htopic : Topic.resolve p.topicLead row.event.aggregateType with
    | error e => rw [hmessage, htopic] at h; cases h
    | ok topic =>
      rw [hmessage, htopic] at h
      cases h
      exact ⟨message, topic, rfl, rfl, rfl⟩

/-- Outcomes are of the rows that were addressed, and where one is no failure the row's parcel was
delivered. -/
theorem mem_outcomes {addressed : List (Row × Except Failure Parcel)} {deliveries : List Delivery}
    {outcome : Row × Option Failure} (h : outcome ∈ p.outcomes addressed deliveries) :
    ∃ result, (outcome.1, result) ∈ addressed ∧ (outcome.2 = none → ∃ parcel, result = .ok parcel ∧
      (parcel, .delivered) ∈ (addressed.filterMap parcelOf?).zip deliveries) := by
  induction addressed generalizing deliveries with
  | nil => cases h
  | cons first rest ih =>
    obtain ⟨row, result⟩ := first
    cases result with
    | error failure =>
      rcases List.mem_cons.1 h with rfl | h
      · exact ⟨_, List.mem_cons_self, nofun⟩
      · obtain ⟨result, hmem, hnone⟩ := ih h
        exact ⟨result, List.mem_cons_of_mem _ hmem, hnone⟩
    | ok parcel =>
      cases deliveries with
      | nil =>
        rcases List.mem_cons.1 h with rfl | h
        · exact ⟨_, List.mem_cons_self, nofun⟩
        · obtain ⟨result, hmem, hnone⟩ := ih h
          refine ⟨result, List.mem_cons_of_mem _ hmem, fun hn => ?_⟩
          obtain ⟨_, _, hzip⟩ := hnone hn
          simp at hzip
      | cons delivery deliveries =>
        rcases List.mem_cons.1 h with rfl | h
        · exact ⟨_, List.mem_cons_self, fun hn => ⟨parcel, rfl, by
            rw [failureOf_eq_none.1 hn]
            exact List.mem_cons_self⟩⟩
        · obtain ⟨result, hmem, hnone⟩ := ih h
          refine ⟨result, List.mem_cons_of_mem _ hmem, fun hn => ?_⟩
          obtain ⟨parcel, hresult, hzip⟩ := hnone hn
          exact ⟨parcel, hresult, List.mem_cons_of_mem _ hzip⟩

/-- What is known of an outcome of a batch. -/
def Proven (p : Publisher) (rows : List Row) (story : Story) (outcome : Row × Option Failure) : Prop :=
  outcome.1 ∈ rows ∧ (outcome.2 = none →
    ∃ parcel, p.parcel outcome.1 = .ok parcel ∧ Acknowledged story p.limit parcel)

theorem Proven.mono {rows' : List Row} {outcome : Row × Option Failure} (h : p.Proven rows story outcome)
    (hs : story <:+ s) (hrows : ∀ row ∈ rows, row ∈ rows') : p.Proven rows' s outcome := by
  refine ⟨hrows _ h.1, fun hn => ?_⟩
  obtain ⟨parcel, hparcel, hack⟩ := h.2 hn
  exact ⟨parcel, hparcel, hack.mono hs⟩

end Publisher

theorem noteAll_obeys (ms : List Measurement) :
    (Program.noteAll ms).Obeys (Warranted relay) (fun _ _ => True) story := by
  induction ms generalizing story with
  | nil => trivial
  | cons m rest ih => exact (Obeys.perform trivial).bind fun _ _ _ => ih

theorem publishChunk_obeys (p : Publisher) (rows : List Row) :
    (p.publishChunk rows).Obeys (Warranted relay) (fun outcomes s => ∀ o ∈ outcomes, p.Proven rows s o) story := by
  have hdeliver (story : Story) : (do
      let deliveries ← Program.deliver p.measured p.limit
        ((rows.map fun row => (row, p.parcel row)).filterMap Publisher.parcelOf?)
      return p.outcomes (rows.map fun row => (row, p.parcel row)) deliveries : Program _).Obeys (Warranted relay)
      (fun outcomes s => ∀ o ∈ outcomes, p.Proven rows s o) story := by
    refine (Obeys.perform trivial).bind ?_
    rintro deliveries _ rfl
    refine .pure fun o ho => ?_
    obtain ⟨result, hmem, hnone⟩ := Publisher.mem_outcomes ho
    obtain ⟨row, hrow, hpair⟩ := List.mem_map.1 hmem
    obtain ⟨rfl, rfl⟩ := Prod.mk.inj hpair
    refine ⟨hrow, fun hn => ?_⟩
    obtain ⟨parcel, hparcel, hzip⟩ := hnone hn
    exact ⟨parcel, hparcel, _, _, deliveries, List.mem_cons_self, hzip⟩
  rw [Publisher.publishChunk]
  split
  · exact (noteAll_obeys _).bind fun _ s _ => hdeliver s
  · exact hdeliver story

theorem publishChunks_obeys (p : Publisher) (chunks : List (List Row)) :
    (p.publishChunks chunks).Obeys (Warranted relay)
      (fun outcomes s => ∀ o ∈ outcomes, p.Proven chunks.flatten s o) story := by
  induction chunks generalizing story with
  | nil => exact .pure fun o ho => absurd ho List.not_mem_nil
  | cons chunk rest ih =>
    rw [Publisher.publishChunks]
    refine (publishChunk_obeys p chunk).bind fun first s hfirst => ih.suffix.bind ?_
    rintro others s' ⟨hs, hothers⟩
    refine .pure fun o ho => ?_
    rw [List.flatten_cons]
    rcases List.mem_append.1 ho with ho | ho
    · exact (hfirst o ho).mono hs fun _ => List.mem_append_left _
    · exact (hothers o ho).mono List.suffix_rfl fun _ => List.mem_append_right _

/-- What is known of a batch. -/
def Batch.Proven (relay : Relay) (story : Story) (batch : Batch) : Prop :=
  (∀ id ∈ batch.delivered, Published relay story id) ∧ ∀ failed ∈ batch.failed, Claimed story failed.row

theorem Batch.Proven.mono {batch : Batch} (h : batch.Proven relay story) (hs : story <:+ s) :
    batch.Proven relay s :=
  ⟨fun id hid => (h.1 id hid).mono hs, fun failed hfailed => (h.2 failed hfailed).mono hs⟩

theorem process_obeys (hrows : ∀ row ∈ rows, Claimed story row) :
    (relay.publisher.process rows).Obeys (Warranted relay) (fun batch s => batch.Proven relay s) story := by
  rw [Publisher.process]
  refine (publishChunks_obeys relay.publisher _).suffix.bind ?_
  rintro outcomes s ⟨hs, houtcomes⟩
  rw [flatten_chunks] at houtcomes
  refine .pure ⟨fun id hid => ?_, fun failed hfailed => ?_⟩
  · obtain ⟨⟨row, result⟩, ho, hid⟩ := List.mem_filterMap.1 hid
    obtain ⟨hrow, hdelivered⟩ := houtcomes _ ho
    cases result with
    | some failure => cases hid
    | none =>
      obtain ⟨parcel, hparcel, hack⟩ := hdelivered rfl
      exact ⟨row, parcel, (hrows row hrow).mono hs, Option.some.inj hid, hparcel, hack⟩
  · obtain ⟨⟨row, result⟩, ho, hfailed⟩ := List.mem_filterMap.1 hfailed
    cases result with
    | none => cases hfailed
    | some failure =>
      cases hfailed
      exact (hrows row (houtcomes _ ho).1).mono hs

/-! ### Recording outcomes -/

theorem recordDelivered_obeys {ids : List Int} (h : ∀ id ∈ ids, Published relay story id) (report : Report) :
    (recordDelivered ids report).Obeys (Warranted relay) (fun _ _ => True) story := by
  rw [recordDelivered]
  split
  · exact .pure trivial
  · refine .bind (.lift (.suffix (Obeys.perform trivial))) fun now s hs => ?_
    refine .bind (Interruptible.Obeys.ask fun id hid => (h id hid).mono hs.1) fun marked s' _ => ?_
    dsimp only
    split
    · exact .bind (.throw trivial) fun _ _ => False.elim
    · exact .pure trivial

theorem problem_obeys {deliveries : List Delivery} :
    (liftM (relay.graveyard.problem (deliveries.headD .timedOut)) : Program.Interruptible (Option String)).Obeys
      (Warranted relay) (fun problem s => s = story ∧ (problem = none → ∃ rest, deliveries = .delivered :: rest))
      story := by
  refine .ofExcept ?_
  cases deliveries with
  | nil => exact ⟨rfl, nofun⟩
  | cons delivery rest =>
    cases delivery with
    | delivered => exact ⟨rfl, fun _ => ⟨rest, rfl⟩⟩
    | refused => exact ⟨rfl, nofun⟩
    | timedOut => exact ⟨rfl, nofun⟩
    | crashed => trivial

theorem bury_obeys {failed : FailedRow} (h : Claimed story failed.row) (delay : Span) :
    (relay.graveyard.bury failed delay).Obeys (Warranted relay) (fun _ _ => True) story := by
  rw [Graveyard.bury]
  refine .bind (.lift (.suffix (Obeys.perform trivial))) fun now s hs => ?_
  refine .bind (.lift (Obeys.perform trivial)) ?_
  rintro deliveries _ rfl
  refine .bind problem_obeys ?_
  rintro problem _ ⟨rfl, hnone⟩
  split
  · refine .bind (.lift (.suffix (Obeys.perform trivial))) fun now' s' hs' => ?_
    refine .bind (Interruptible.Obeys.ask ?_) fun marked _ _ => .pure trivial
    obtain ⟨rest, rfl⟩ := hnone rfl
    exact ⟨failed, now, (h.mono hs.1).mono ((List.suffix_cons _ _).trans hs'.1), rfl,
      _, _, _, hs'.1.subset List.mem_cons_self, List.mem_cons_self⟩
  · refine .bind (.lift (Obeys.perform trivial)) fun _ _ _ => ?_
    exact .bind (Interruptible.Obeys.ask trivial) fun _ _ _ => .pure trivial

theorem recordFailed_obeys {failed : FailedRow} (h : Claimed story failed.row) (report : Report) :
    (relay.recordFailed failed report).Obeys (Warranted relay) (fun _ _ => True) story := by
  rw [recordFailed]
  refine .bind (.lift (.suffix (Obeys.perform trivial))) fun _ s hs => ?_
  split
  · refine .bind (.lift (Obeys.perform trivial)) fun _ _ _ => ?_
    exact .bind (Interruptible.Obeys.ask trivial) fun _ _ _ => .pure trivial
  · exact .bind (bury_obeys (h.mono hs.1) _) fun _ _ _ => .pure trivial

theorem recordAllFailed_obeys {failures : List FailedRow} (h : ∀ failed ∈ failures, Claimed story failed.row)
    (report : Report) : (relay.recordAllFailed failures report).Obeys (Warranted relay) (fun _ _ => True) story := by
  induction failures generalizing story report with
  | nil => exact .pure trivial
  | cons failed rest ih =>
    rw [recordAllFailed]
    refine .bind (.suffix (recordFailed_obeys (h failed List.mem_cons_self) report)) fun report s hs => ?_
    exact ih (fun other hother => (h other (List.mem_cons_of_mem _ hother)).mono hs.1) report

/-! ### Ticks -/

theorem tickAt_obeys (relay : Relay) (now : Instant) (story : Story) :
    (relay.tickAt now).Obeys (Warranted relay) (fun _ _ => True) story := by
  rw [tickAt]
  refine .bind (Interruptible.Obeys.ask trivial) ?_
  rintro rows _ rfl
  split
  · exact .pure trivial
  · have hrows : ∀ row ∈ rows, Claimed (_ :: story) row := fun row hrow =>
      ⟨_, _, _, _, rows, List.mem_cons_self, hrow⟩
    refine .bind (.lift (process_obeys hrows)) fun batch s hbatch => ?_
    refine .bind (.suffix (recordDelivered_obeys hbatch.1 _)) fun report s' hs' => ?_
    exact recordAllFailed_obeys (hbatch.mono hs'.1).2 report

theorem tick_obeys (relay : Relay) (story : Story) :
    relay.tick.Obeys (Warranted relay) (fun _ _ => True) story :=
  .bind (.lift (Obeys.perform trivial)) fun now s _ => tickAt_obeys relay now s

theorem refreshCounts_obeys : refreshCounts.Obeys (Warranted relay) (fun _ _ => True) story := by
  rw [refreshCounts]
  refine .bind (Obeys.perform trivial) fun counts _ _ => ?_
  split
  · exact .bind (Obeys.perform trivial) fun _ _ _ => .pure trivial
  · exact .pure trivial
  · exact .pure trivial

theorem runTick_obeys (relay : Relay) (stats : Stats) (story : Story) :
    (relay.runTick stats).Obeys (Warranted relay) (fun _ _ => True) story := by
  rw [runTick]
  refine .bind (Obeys.perform trivial) fun start s _ => .bind (tick_obeys relay s) fun result s' _ => ?_
  split
  · exact .pure trivial
  · exact .bind (Obeys.perform trivial) fun _ _ _ => .bind (Obeys.perform trivial) fun _ _ _ =>
      .bind (Obeys.perform trivial) fun _ _ _ => .bind refreshCounts_obeys fun _ _ _ => .pure trivial
  · exact .bind (Obeys.perform trivial) fun _ _ _ => .bind refreshCounts_obeys fun _ _ _ => .pure trivial

end Outbox.Relay
