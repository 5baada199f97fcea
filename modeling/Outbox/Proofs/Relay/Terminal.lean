import Outbox.Proofs.Relay.Evidence
import Outbox.Proofs.Relay.Fleet

/-! No event is given up undelivered. Whatever a fleet of relays does, a row is published only if a broker took
the event's message in time, and dead only if one took a dead letter of it. Every relay has the evidence for
what it marks in its own story; the story stays true while others change the table, since no call changes the
event of a row and no delivery is undone. -/

namespace Outbox.Relay.Fleet

open Simulation (Ending Flight)

variable {ι : Type} {relays : ι → Relay} {f f' : Fleet ι} {relay : ι} {story : Story}

/-- The broker took a parcel of a relay within a time limit. -/
def Took (f : Fleet ι) (relay : ι) (limit : Span) (parcel : Parcel) : Prop :=
  ∃ flight, (relay, flight) ∈ f.landed ∧ flight.parcel = parcel ∧ flight.rule.ending = .accept ∧
    flight.rule.delay ≤ limit.timerMillis

/-- The message of an event was taken, on the topic of its aggregate type. -/
def Delivered (relays : ι → Relay) (f : Fleet ι) (event : Event) : Prop :=
  ∃ relay claimed message topic, claimed.event = event ∧ Message.ofRow claimed = .ok message ∧
    message.eventId = event.id ∧
    Topic.resolve (relays relay).publisher.topicLead event.aggregateType = .ok topic ∧
    f.Took relay (relays relay).publisher.limit ⟨topic, event.aggregateId, message.text⟩

/-- A dead letter of an event was taken, under the event's id. -/
def Lettered (relays : ι → Relay) (f : Fleet ι) (event : Event) : Prop :=
  ∃ relay claimed cause now, claimed.event = event ∧
    f.Took relay (relays relay).graveyard.limit
      ⟨(relays relay).graveyard.topic, Decimal.integerText event.id, (DeadLetter.ofRow claimed cause now).text⟩

/-! ### What stays true -/

/-- The events of a fleet stand in a later one, and what has landed stays. -/
def Within (f f' : Fleet ι) : Prop :=
  (∀ id r, f.table.find? id = some r → ∃ r', f'.table.find? id = some r' ∧ r'.event = r.event) ∧
    f.landed ⊆ f'.landed

theorem within_ask (f : Fleet ι) (request : Request) : f.Within { f with table := f.table.after request } := by
  refine ⟨fun id r hr => ?_, List.Subset.refl _⟩
  have hchange := Table.change_after f.table request id
  rw [hr] at hchange
  exact hchange.event_eq

theorem within_landed (f : Fleet ι) (landing : ι × Flight) :
    f.Within { f with landed := landing :: f.landed } :=
  ⟨fun _ r hr => ⟨r, hr, rfl⟩, List.subset_cons_self _ _⟩

theorem Took.mono {limit : Span} {parcel : Parcel} (h : f.Took relay limit parcel) (hf : f.Within f') :
    f'.Took relay limit parcel := by
  obtain ⟨flight, hmem, hflight⟩ := h
  exact ⟨flight, hf.2 hmem, hflight⟩

theorem Delivered.mono {event : Event} (h : f.Delivered relays event) (hf : f.Within f') :
    f'.Delivered relays event := by
  obtain ⟨relay, claimed, message, topic, hevent, hmessage, hid, htopic, htook⟩ := h
  exact ⟨relay, claimed, message, topic, hevent, hmessage, hid, htopic, htook.mono hf⟩

theorem Lettered.mono {event : Event} (h : f.Lettered relays event) (hf : f.Within f') :
    f'.Lettered relays event := by
  obtain ⟨relay, claimed, cause, now, hevent, htook⟩ := h
  exact ⟨relay, claimed, cause, now, hevent, htook.mono hf⟩

/-! ### Stories -/

/-- What a relay was told is so: the events of the rows that it claimed stand in the table, and the broker took
what it was told was delivered. -/
def Confirms (f : Fleet ι) (relay : ι) : Exchange → Prop
  | ⟨.ask (.claim _ _ _ _), .ok rows⟩ =>
    ∀ row : Row, row ∈ rows → ∃ r, f.table.find? row.id = some r ∧ r.event = row.event
  | ⟨.deliver _ limit parcels, deliveries⟩ =>
    ∀ parcel : Parcel, (parcel, .delivered) ∈ parcels.zip deliveries → f.Took relay limit parcel
  | _ => True

/-- The story of a relay is true. -/
def Truthful (f : Fleet ι) (relay : ι) (story : Story) : Prop := ∀ exchange ∈ story, f.Confirms relay exchange

theorem Confirms.mono {exchange : Exchange} (h : f.Confirms relay exchange) (hf : f.Within f') :
    f'.Confirms relay exchange := by
  unfold Confirms at h ⊢
  split at h
  · intro row hrow
    obtain ⟨r, hr, hevent⟩ := h row hrow
    obtain ⟨r', hr', hevent'⟩ := hf.1 _ r hr
    exact ⟨r', hr', hevent'.trans hevent⟩
  · exact fun parcel hparcel => (h parcel hparcel).mono hf
  · trivial

theorem confirms_error (f : Fleet ι) (relay : ι) (request : Request) (e : Interrupt) :
    f.Confirms relay ⟨.ask request, .error e⟩ := by
  cases request <;> trivial

/-- The rows that a claim returns stand in the table after it. -/
theorem confirms_answer (f : Fleet ι) (relay : ι) (request : Request) :
    Confirms { f with table := f.table.after request } relay ⟨.ask request, (f.table.answer request).1⟩ := by
  cases request with
  | claim p limit now stuck =>
    cases hclaim : f.table.claim p limit now stuck with
    | none =>
      rw [Table.answer_claim_none hclaim]
      trivial
    | some result =>
      rw [Table.answer_claim hclaim]
      intro row hrow
      obtain ⟨-, -, -, -, hafter⟩ := Table.find?_after_claim hclaim hrow
      exact ⟨row, by rw [Table.after_claim hclaim, hafter], rfl⟩
  | _ => trivial

theorem Truthful.mono (h : f.Truthful relay story) (hf : f.Within f') : f'.Truthful relay story :=
  fun exchange hexchange => (h exchange hexchange).mono hf

theorem Truthful.cons {exchange : Exchange} (h : f.Truthful relay story) (hexchange : f.Confirms relay exchange) :
    f.Truthful relay (exchange :: story) :=
  List.forall_mem_cons.2 ⟨hexchange, h⟩

theorem Truthful.claimed {row : Row} (h : f.Truthful relay story) (hrow : Claimed story row) :
    ∃ r, f.table.find? row.id = some r ∧ r.event = row.event := by
  obtain ⟨_, _, _, _, rows, hmem, hrow⟩ := hrow
  exact h _ hmem row hrow

theorem Truthful.took {limit : Span} {parcel : Parcel} (h : f.Truthful relay story)
    (hparcel : Acknowledged story limit parcel) : f.Took relay limit parcel := by
  obtain ⟨_, parcels, deliveries, hmem, hparcel⟩ := hparcel
  exact h _ hmem parcel hparcel

theorem Truthful.delivered {id : Int} {r : Row} (h : f.Truthful relay story)
    (hid : Published (relays relay) story id) (hr : f.table.find? id = some r) : f.Delivered relays r.event := by
  obtain ⟨row, parcel, hrow, rfl, hparcel, hack⟩ := hid
  obtain ⟨message, topic, hmessage, htopic, rfl⟩ := Publisher.parcel_eq_ok hparcel
  obtain ⟨r', hr', hevent⟩ := h.claimed hrow
  cases hr.symm.trans hr'
  rw [hevent]
  exact ⟨relay, row, message, topic, rfl, hmessage, Message.eventId_of_ofRow hmessage, htopic,
    h.took hack⟩

theorem Truthful.lettered {id : Int} {r : Row} (h : f.Truthful relay story)
    (hid : Buried (relays relay) story id) (hr : f.table.find? id = some r) : f.Lettered relays r.event := by
  obtain ⟨failed, now, hrow, rfl, hack⟩ := hid
  obtain ⟨r', hr', hevent⟩ := h.claimed hrow
  cases hr.symm.trans hr'
  refine ⟨relay, failed.row, failed.failure.message, now, hevent.symm, ?_⟩
  have := h.took hack
  rwa [Graveyard.letter, Row.id, ← hevent] at this

/-! ### Sound fleets -/

/-- A relay has a true story, after which all that it still does is warranted. -/
def Backed (relays : ι → Relay) (f : Fleet ι) (relay : ι) : Phase → Prop
  | .idle => True
  | .working rest =>
    ∃ story, f.Truthful relay story ∧ rest.Obeys (Warranted (relays relay)) (fun _ _ => True) story
  | .waiting measured limit passages next =>
    ∃ story, f.Truthful relay story ∧
      (∀ deliveries, (next deliveries).Obeys (Warranted (relays relay)) (fun _ _ => True)
        (⟨.deliver measured limit (passages.map Passage.parcel), deliveries⟩ :: story)) ∧
      ∀ passage ∈ passages, ∀ flight, passage.flight = some flight →
        flight.delivery = .delivered → f.Took relay limit passage.parcel

/-- The invariant of a fleet. -/
structure Sound (relays : ι → Relay) (f : Fleet ι) : Prop where
  backed : ∀ relay, f.Backed relays relay (f.phase relay)
  published : ∀ id r, f.table.find? id = some r → r.status = .published → f.Delivered relays r.event
  dead : ∀ id r, f.table.find? id = some r → r.status = .deadLettered → f.Lettered relays r.event

theorem Backed.mono {phase : Phase} (h : f.Backed relays relay phase) (hf : f.Within f') :
    f'.Backed relays relay phase := by
  cases phase with
  | idle => trivial
  | working rest =>
    obtain ⟨story, htrue, hrest⟩ := h
    exact ⟨story, htrue.mono hf, hrest⟩
  | waiting measured limit passages next =>
    obtain ⟨story, htrue, hnext, hflights⟩ := h
    exact ⟨story, htrue.mono hf, hnext, fun passage hpassage flight hflight hdelivered =>
      (hflights passage hpassage flight hflight hdelivered).mono hf⟩

/-- What a call marks for good has its evidence. -/
def Sanctioned (relays : ι → Relay) (f : Fleet ι) : Request → Prop
  | .markPublished ids _ => ∀ id ∈ ids, ∀ r, f.table.find? id = some r → f.Delivered relays r.event
  | .markDead id _ _ => ∀ r, f.table.find? id = some r → f.Lettered relays r.event
  | _ => True

theorem Truthful.sanctioned {request : Request} (h : f.Truthful relay story)
    (hw : Warranted (relays relay) story (.ask request)) : f.Sanctioned relays request := by
  cases request with
  | markPublished ids now => exact fun id hid r hr => h.delivered (hw id hid) hr
  | markDead id cause now => exact fun r hr => h.lettered hw hr
  | save | claim | markFailed | counts => trivial

theorem Sound.ask {request : Request} (h : f.Sound relays) (hs : f.Sanctioned relays request) :
    Sound relays { f with table := f.table.after request } := by
  have hf := within_ask f request
  refine ⟨fun relay => (h.backed relay).mono hf, fun id r hr hstatus => ?_, fun id r hr hstatus => ?_⟩
  · have hchange := Table.change_after f.table request id
    rw [hr] at hchange
    generalize hfound : f.table.find? id = found at hchange
    cases hchange with
    | kept => exact (h.published id r hfound hstatus).mono hf
    | published r hid => exact (hs id hid r hfound).mono hf
    | saved | claimed | failed | deadLettered => cases hstatus
  · have hchange := Table.change_after f.table request id
    rw [hr] at hchange
    generalize hfound : f.table.find? id = found at hchange
    cases hchange with
    | kept => exact (h.dead id r hfound hstatus).mono hf
    | deadLettered r => exact (hs r hfound).mono hf
    | saved | claimed | failed | published => cases hstatus

theorem Sound.landed (h : f.Sound relays) (landing : ι × Flight) :
    Sound relays { f with landed := landing :: f.landed } := by
  have hf := within_landed f landing
  exact ⟨fun relay => (h.backed relay).mono hf, fun id r hr hstatus => (h.published id r hr hstatus).mono hf,
    fun id r hr hstatus => (h.dead id r hr hstatus).mono hf⟩

/-- The deliveries of parcels are those of their flights. -/
theorem Passage.mem_zip_deliveries {passages : List Passage} {deliveries : List Delivery} {parcel : Parcel}
    {delivery : Delivery} (h : Passage.deliveries? passages = some deliveries)
    (hmem : (parcel, delivery) ∈ (passages.map Passage.parcel).zip deliveries) :
    ∃ passage ∈ passages, passage.parcel = parcel ∧
      ∃ flight, passage.flight = some flight ∧ flight.delivery = delivery := by
  induction passages generalizing deliveries with
  | nil => simp at hmem
  | cons passage rest ih =>
    rw [Passage.deliveries?] at h
    obtain ⟨flight, hflight, h⟩ := Option.bind_eq_some_iff.1 h
    obtain ⟨others, hothers, h⟩ := Option.bind_eq_some_iff.1 h
    cases h
    rcases List.mem_cons.1 hmem with heq | hmem
    · cases heq
      exact ⟨passage, List.mem_cons_self, rfl, flight, hflight, rfl⟩
    · obtain ⟨other, hother, hrest⟩ := ih hothers hmem
      exact ⟨other, List.mem_cons_of_mem _ hother, hrest⟩

section Steps

variable [DecidableEq ι]

theorem Sound.become {phase : Phase} (h : f.Sound relays) (hphase : f.Backed relays relay phase) :
    (f.become relay phase).Sound relays := by
  have hf : f.Within (f.become relay phase) := ⟨fun id r hr => ⟨r, hr, rfl⟩, List.Subset.refl _⟩
  refine ⟨fun other => ?_, h.published, h.dead⟩
  by_cases hother : other = relay
  · subst hother
    rw [phase_become]
    exact hphase.mono hf
  · rw [phase_become_of_ne hother]
    exact (h.backed other).mono hf

theorem job_obeys (relay : Relay) (job : Job) :
    (job.program relay).Obeys (Warranted relay) (fun _ _ => True) [] := by
  cases job with
  | tickAt now => exact .bind (tickAt_obeys relay now []) fun _ _ _ => .pure trivial
  | runTick stats => exact .bind (runTick_obeys relay stats []) fun _ _ _ => .pure trivial

theorem Sound.act (h : f.Sound relays) (chance : Chance) {action : Action} {next : action.Answer → Program Unit}
    (hnow : f.Backed relays relay (.working (.act action next))) : (f.act relay chance action next).Sound relays := by
  obtain ⟨story, htrue, hw, hnext⟩ := hnow
  cases action with
  | ask request =>
    rw [Fleet.act]
    split
    · next fault _ =>
      exact h.become ⟨_, htrue.cons (confirms_error f relay request _), hnext (.error (.fault fault)) trivial⟩
    · exact (h.ask (htrue.sanctioned hw)).become ⟨_, (htrue.mono (within_ask f request)).cons
        (confirms_answer f relay request), hnext (f.table.answer request).1 trivial⟩
  | now => exact h.become ⟨⟨.now, chance.now⟩ :: story, htrue.cons trivial, hnext chance.now trivial⟩
  | elapsed => exact h.become ⟨⟨.elapsed, chance.elapsed⟩ :: story, htrue.cons trivial, hnext chance.elapsed trivial⟩
  | note m => exact h.become ⟨⟨.note m, ()⟩ :: story, htrue.cons trivial, hnext () trivial⟩
  | deliver measured limit parcels =>
    refine h.become ⟨story, htrue, fun deliveries => ?_, ?_⟩
    · rw [List.map_map]
      have hparcels : parcels.map (Passage.parcel ∘ fun parcel => { parcel := parcel }) = parcels := List.map_id _
      rw [hparcels]
      exact hnext deliveries trivial
    · rintro passage hpassage flight hflight
      obtain ⟨parcel, -, rfl⟩ := List.mem_map.1 hpassage
      cases hflight

theorem Sound.land (h : f.Sound relays) (place start delay : Nat) (ending : Ending) :
    (f.land relay place start delay ending).Sound relays := by
  rw [Fleet.land]
  split
  · next measured limit passages next hphase =>
    split
    · next parcel hparcel =>
      have hnow := h.backed relay
      rw [hphase] at hnow
      obtain ⟨story, htrue, hnext, hflights⟩ := hnow
      have hf := within_landed f (relay, .depart parcel { delay := delay, ending := ending } start limit measured)
      refine (h.landed _).become ⟨story, htrue.mono hf, fun deliveries => ?_, fun passage hpassage => ?_⟩
      · rw [Passage.map_parcel_set hparcel]
        exact hnext deliveries
      · rintro flight hflight hdelivered
        rcases List.mem_or_eq_of_mem_set hpassage with hpassage | rfl
        · exact (hflights passage hpassage flight hflight hdelivered).mono hf
        · cases hflight
          obtain ⟨hending, hdelay⟩ := Flight.depart_delivered hdelivered
          exact ⟨_, List.mem_cons_self, rfl, hending, hdelay⟩
    · exact h
  · exact h

theorem Sound.step (h : f.Sound relays) (move : Move ι) : (f.step relays move).Sound relays := by
  cases move with
  | save event => exact h.ask trivial
  | start relay job =>
    rw [Fleet.step]
    split
    · exact h.become ⟨[], List.forall_mem_nil _, job_obeys (relays relay) job⟩
    · exact h
  | proceed relay chance =>
    have hnow := h.backed relay
    rw [Fleet.step]
    split
    · exact h
    · exact h.become trivial
    · next hphase =>
      rw [hphase] at hnow
      exact h.act chance hnow
    · next measured limit passages next hphase =>
      rw [hphase] at hnow
      split
      · next deliveries hdeliveries =>
        obtain ⟨story, htrue, hnext, hflights⟩ := hnow
        refine h.become ⟨_, htrue.cons ?_, hnext deliveries⟩
        intro parcel hparcel
        obtain ⟨passage, hpassage, rfl, flight, hflight, hdelivered⟩ :=
          Passage.mem_zip_deliveries hdeliveries hparcel
        exact hflights passage hpassage flight hflight hdelivered
      · exact h
  | land relay place start delay ending => exact h.land place start delay ending

end Steps

variable [DecidableEq ι]

theorem sound_run (relays : ι → Relay) (moves : List (Move ι)) : (run relays moves).Sound relays := by
  have hempty (id : Int) (r : Row) : ({} : Fleet ι).table.find? id ≠ some r := Option.some_ne_none r |>.symm
  have hstart : Sound relays {} :=
    ⟨fun _ => trivial, fun id r hr => absurd hr (hempty id r), fun id r hr => absurd hr (hempty id r)⟩
  suffices ∀ f : Fleet ι, f.Sound relays → (moves.foldl (step relays) f).Sound relays from this {} hstart
  induction moves with
  | nil => exact fun f hf => hf
  | cons move rest ih => exact fun f hf => ih _ (hf.step move)

/-- Whatever happens in a fleet, a row that is published or dead was not given up undelivered: the broker of one
of the relays accepted, within that relay's limit, the message of the row's event on the topic of its aggregate
type; or a dead letter of it on the topic for those, under the event's id. -/
theorem settled_only_if_taken (relays : ι → Relay) (moves : List (Move ι)) :
    (∀ row ∈ (run relays moves).table.rows, row.status = .published →
      ∃ relay claimed message topic flight, claimed.event = row.event ∧ Message.ofRow claimed = .ok message ∧
        message.eventId = row.id ∧
        Topic.resolve (relays relay).publisher.topicLead row.event.aggregateType = .ok topic ∧
        (relay, flight) ∈ (run relays moves).landed ∧
        flight.parcel = ⟨topic, row.event.aggregateId, message.text⟩ ∧ flight.rule.ending = .accept ∧
        flight.rule.delay ≤ (relays relay).publisher.limit.timerMillis) ∧
    (∀ row ∈ (run relays moves).table.rows, row.status = .deadLettered →
      ∃ relay claimed cause now flight, claimed.event = row.event ∧
        (relay, flight) ∈ (run relays moves).landed ∧
        flight.parcel = ⟨(relays relay).graveyard.topic, Decimal.integerText row.id,
          (DeadLetter.ofRow claimed cause now).text⟩ ∧ flight.rule.ending = .accept ∧
        flight.rule.delay ≤ (relays relay).graveyard.limit.timerMillis) := by
  have hsound := sound_run relays moves
  refine ⟨fun row hrow hstatus => ?_, fun row hrow hstatus => ?_⟩
  · obtain ⟨relay, claimed, message, topic, hevent, hmessage, hid, htopic, flight, htook⟩ :=
      hsound.published row.id row (Table.find?_of_mem hrow) hstatus
    exact ⟨relay, claimed, message, topic, flight, hevent, hmessage, hid, htopic, htook⟩
  · obtain ⟨relay, claimed, cause, now, hevent, flight, htook⟩ :=
      hsound.dead row.id row (Table.find?_of_mem hrow) hstatus
    exact ⟨relay, claimed, cause, now, flight, hevent, htook⟩

/-- A relay with time limits of a second. -/
def patient : Relay := { publisher := { chunk := 4, limit := .ofSeconds 1 }, graveyard := { limit := .ofSeconds 1 } }

/-- An event whose payload is JSON is saved and relayed, and then one whose payload is not. -/
def orders : List (Move Unit) :=
  let save (id : Int) (payload : Bytes) : Move Unit := .save {
    id := id, aggregateType := "Order", aggregateId := "order-1", kind := "OrderPlaced", payload := payload
    createdAt := .epoch }
  let work (steps : Nat) : List (Move Unit) := List.replicate steps (.proceed () {})
  let taken : List (Move Unit) := [.land () 0 0 20 .accept]
  [save 1 [123, 125], .start () (.tickAt .epoch)] ++ work 2 ++ taken ++ work 4 ++
    [save 2 [120], .start () (.tickAt .epoch)] ++ work 6 ++ taken ++ work 4

/-- The first is published, and the second is dead. -/
theorem orders_settled :
    (∃ row ∈ (run (fun _ => patient) orders).table.rows, row.status = .published ∧
      ∃ flight, ((), flight) ∈ (run (fun _ => patient) orders).landed ∧ flight.parcel.key = row.event.aggregateId) ∧
    (∃ row ∈ (run (fun _ => patient) orders).table.rows, row.status = .deadLettered ∧
      ∃ flight, ((), flight) ∈ (run (fun _ => patient) orders).landed ∧
        flight.parcel.topic = "outbox.dead-letter" ∧ flight.parcel.key = Decimal.integerText row.id) := by
  obtain ⟨hpublished, hdead⟩ := settled_only_if_taken (fun _ : Unit => patient) orders
  have first : ∃ row ∈ (run (fun _ => patient) orders).table.rows, row.status = .published := by decide +kernel
  have second : ∃ row ∈ (run (fun _ => patient) orders).table.rows, row.status = .deadLettered := by decide +kernel
  obtain ⟨row, hrow, hstatus⟩ := first
  obtain ⟨row', hrow', hstatus'⟩ := second
  refine ⟨⟨row, hrow, hstatus, ?_⟩, row', hrow', hstatus', ?_⟩
  · obtain ⟨⟨⟩, _, _, _, flight, -, -, -, -, hmem, hparcel, -⟩ := hpublished row hrow hstatus
    exact ⟨flight, hmem, by rw [hparcel]⟩
  · obtain ⟨⟨⟩, _, _, _, flight, -, hmem, hparcel, -⟩ := hdead row' hrow' hstatus'
    exact ⟨flight, hmem, by rw [hparcel]; rfl, by rw [hparcel]⟩

end Outbox.Relay.Fleet
