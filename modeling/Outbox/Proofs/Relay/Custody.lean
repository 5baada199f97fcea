import Mathlib.Data.List.Nodup
import Mathlib.Data.List.Perm.Basic
import Outbox.Proofs.Count
import Outbox.Proofs.Relay.Conduct
import Outbox.Proofs.Store.Marking
import Outbox.Relay.Tick

/-! What a tick does with the rows that it claimed, whatever it is answered. It marks a row only while it holds
it, that is once at most and after its own claim; it waits no longer than its limits add up to; it asks for
nothing after a call that failed, so that the failure ends it; and it reports as skipped the rows that the store
did not mark. -/

namespace Outbox.Relay

/-! ### Reading a story -/

namespace Exchange

/-- The rows that a claim returned. -/
def claimed : Exchange → List Row
  | ⟨.ask (.claim _ _ _ _), .ok rows⟩ => rows
  | _ => []

/-- The ids of the rows that an answered call was to mark. -/
def marked : Exchange → List Int
  | ⟨.ask request, .ok _⟩ => request.targets
  | _ => []

/-- How many rows were to be marked and were not, by the answer. -/
def missed : Exchange → Nat
  | ⟨.ask request, .ok answer⟩ => request.targets.length - request.tally answer
  | _ => 0

/-- The most milliseconds until the answer. -/
def patience : Exchange → Nat
  | ⟨.deliver _ limit _, _⟩ => limit.timerMillis
  | _ => 0

/-- A call that failed. -/
def Fails : Exchange → Prop
  | ⟨.ask _, .error _⟩ => True
  | _ => False

end Exchange

namespace Story

def claimed (story : Story) : List Row := story.flatMap Exchange.claimed

def marked (story : Story) : List Int := story.flatMap Exchange.marked

def missed : Story → Nat
  | [] => 0
  | exchange :: earlier => exchange.missed + missed earlier

def patience : Story → Nat
  | [] => 0
  | exchange :: earlier => exchange.patience + patience earlier

/-- No call failed. -/
def Unbroken (story : Story) : Prop := ∀ exchange ∈ story, ¬exchange.Fails

/-- The row was claimed and is not marked yet. -/
def Holds (story : Story) (row : Row) : Prop := row ∈ story.claimed ∧ row.id ∉ story.marked

theorem holds_cons {exchange : Exchange} {story : Story} {row : Row} :
    Holds (exchange :: story) row ↔
      (row ∈ exchange.claimed ∨ row ∈ story.claimed) ∧ row.id ∉ exchange.marked ∧ row.id ∉ story.marked := by
  rw [Holds, claimed, marked, List.flatMap_cons, List.flatMap_cons, List.mem_append, List.mem_append, not_or]
  rfl

/-- No row is held after an exchange without a claim that was not held before. -/
theorem Holds.of_cons {exchange : Exchange} {story : Story} {row : Row} (h : Holds (exchange :: story) row)
    (hclaimed : exchange.claimed = []) : story.Holds row ∧ row.id ∉ exchange.marked := by
  obtain ⟨hrow, hunmarked, hrest⟩ := holds_cons.1 h
  rw [hclaimed] at hrow
  exact ⟨⟨hrow.resolve_left List.not_mem_nil, hrest⟩, hunmarked⟩

/-- The story went on without a claim or a failure: some rows were asked to be marked, some of them were not, and
no more than some milliseconds passed. -/
structure Onward (story : Story) (ids : List Int) (millis missed : Nat) (later : Story) : Prop where
  claimed : later.claimed = story.claimed
  marked : ∀ id ∈ later.marked, id ∈ ids ∨ id ∈ story.marked
  patience : later.patience ≤ story.patience + millis
  missed : later.missed = story.missed + missed
  unbroken : story.Unbroken → later.Unbroken

variable {story s s' : Story} {ids : List Int} {millis missed : Nat}

theorem Onward.refl (story : Story) : story.Onward [] 0 0 story :=
  ⟨rfl, fun _ => .inr, Nat.le_refl _, rfl, id⟩

theorem Onward.cons (exchange : Exchange) (hclaimed : exchange.claimed = []) (hfails : ¬exchange.Fails) :
    story.Onward exchange.marked exchange.patience exchange.missed (exchange :: story) where
  claimed := by rw [Story.claimed, List.flatMap_cons, hclaimed, List.nil_append, Story.claimed]
  marked _ h := List.mem_append.1 (List.flatMap_cons ▸ h)
  patience := Nat.le_of_eq (Nat.add_comm _ _)
  missed := Nat.add_comm _ _
  unbroken h := List.forall_mem_cons.2 ⟨hfails, h⟩

theorem Onward.trans {ids' : List Int} {millis' missed' : Nat} (h : story.Onward ids millis missed s)
    (h' : s.Onward ids' millis' missed' s') :
    story.Onward (ids ++ ids') (millis + millis') (missed + missed') s' where
  claimed := h'.claimed.trans h.claimed
  marked id hid := by
    rw [List.mem_append]
    rcases h'.marked id hid with hid | hid
    · exact .inl (.inr hid)
    · exact (h.marked id hid).imp_left .inl
  patience := by
    have := h.patience
    have := h'.patience
    omega
  missed := by rw [h'.missed, h.missed, Nat.add_assoc]
  unbroken := h'.unbroken ∘ h.unbroken

theorem Onward.after (h' : s.Onward ids millis missed s') (h : story.Onward [] 0 0 s) :
    story.Onward ids millis missed s' := by
  have := h.trans h'
  rwa [List.nil_append, Nat.zero_add, Nat.zero_add] at this

theorem Onward.before (h : story.Onward [] millis 0 s) (h' : s.Onward ids 0 missed s') :
    story.Onward ids millis missed s' := by
  have := h.trans h'
  rwa [List.nil_append, Nat.add_zero, Nat.zero_add] at this

theorem Onward.mono {millis' : Nat} (h : story.Onward ids millis missed s) (hle : millis ≤ millis') :
    story.Onward ids millis' missed s :=
  { h with patience := Nat.le_trans h.patience (Nat.add_le_add_left hle _) }

/-- A row stays held that is not asked to be marked. -/
theorem Onward.holds {row : Row} (h : story.Onward ids millis missed s) (hrow : story.Holds row)
    (hid : row.id ∉ ids) : s.Holds row := by
  refine ⟨by rw [h.claimed]; exact hrow.1, fun hmarked => ?_⟩
  rcases h.marked _ hmarked with hmarked | hmarked
  · exact hid hmarked
  · exact hrow.2 hmarked

end Story

/-! ### The rule -/

variable {relay : Relay} {story s : Story} {possible : Exchange → Prop}

/-- The most milliseconds that a tick waits: each chunk of its batch runs into the time limit, and then each row
on its way to the dead letters. -/
def patience (relay : Relay) : Nat :=
  Count.groups relay.config.batchSize (max relay.publisher.chunk 1) * relay.publisher.limit.timerMillis +
    relay.config.batchSize * relay.graveyard.limit.timerMillis

/-- What a relay does to settle rows: it marks different rows, all of which it holds, and waits no longer than
it may. -/
def Settles (relay : Relay) (story : Story) : Action → Prop
  | .ask request =>
    request.isMark ∧ request.targets.Nodup ∧ ∀ id ∈ request.targets, ∃ row, story.Holds row ∧ row.id = id
  | .deliver _ limit _ => story.patience + limit.timerMillis ≤ relay.patience
  | _ => True

/-- What a relay does in a tick: it claims once, as it is set up to and as of a time that it has, and settles
rows. It may ask for the counts. -/
def Proper (relay : Relay) (dated : Story → Instant → Prop) (story : Story) : Action → Prop
  | .ask (.claim p limit now stuck) =>
    (p = relay.config.partition ∧ limit = relay.config.batchSize ∧ stuck = relay.config.stuck) ∧
      dated story now ∧ Story.Onward [] [] 0 0 story
  | .ask .counts => True
  | action => relay.Settles story action

theorem Proper.settles {dated : Story → Instant → Prop} {request : Request}
    (h : relay.Proper dated story (.ask request)) (hmark : request.isMark) : relay.Settles story (.ask request) := by
  cases request with
  | markPublished | markFailed | markDead => exact h
  | save | claim | counts => cases hmark

/-- A relay that does what is proper is not left without patience. -/
theorem Proper.patience_le {dated : Story → Instant → Prop} {action : Action} (h : relay.Proper dated story action)
    (hs : story.patience ≤ relay.patience) (answer : action.Answer) :
    Story.patience (⟨action, answer⟩ :: story) ≤ relay.patience := by
  cases action with
  | deliver measured limit parcels => exact Nat.le_trans (Nat.le_of_eq (Nat.add_comm _ _)) h
  | ask | now | elapsed | note => exact Nat.le_trans (Nat.le_of_eq (Nat.zero_add _)) hs

/-- The clock was just read. -/
def Story.Dates (story : Story) (time : Instant) : Prop := story.head? = some ⟨.now, time⟩

/-- A claim returns different rows, and no more than it was asked for. -/
def Credible : Exchange → Prop
  | ⟨.ask (.claim _ limit _ _), .ok rows⟩ => (rows.map Row.id).Nodup ∧ rows.length ≤ limit
  | _ => True

theorem credible_answer (t : Table) (request : Request) : Credible ⟨.ask request, (t.answer request).1⟩ := by
  cases request with
  | claim p limit now stuck =>
    rw [Table.answer]
    split
    · next hclaim => exact ⟨Table.nodup_claim hclaim, Table.length_claim_le hclaim⟩
    · trivial
  | save | markPublished | markFailed | markDead | counts => trivial

theorem credible_error (request : Request) (e : Interrupt) : Credible ⟨.ask request, .error e⟩ := by
  cases request <;> trivial

/-- An answer that interrupts a tick. -/
inductive Alarm (relay : Relay) : Exchange → Interrupt → Prop
  | unanswered {request : Request} (e : Interrupt) : Alarm relay ⟨.ask request, .error e⟩ e
  /-- The store says that it marked more rows than it was asked to. -/
  | overcounted {ids : List Int} {now : Instant} {count : Nat} (h : ids.length < count) :
    Alarm relay ⟨.ask (.markPublished ids now), .ok count⟩ (.crash countUnderflow)
  /-- The broker crashes on a dead letter. -/
  | crashed {measured : Bool} {limit : Span} {parcels : List Parcel} {deliveries : List Delivery} {parcel : Parcel}
    {text : String} (h : (parcel, .crashed text) ∈ parcels.zip deliveries)
    (htopic : parcel.topic = relay.graveyard.topic) :
    Alarm relay ⟨.deliver measured limit parcels, deliveries⟩ (.crash text)

/-- An interruption has its cause in the story. -/
def Alarmed (relay : Relay) (e : Interrupt) (story : Story) : Prop := ∃ exchange ∈ story, relay.Alarm exchange e

/-- The rule of a tick once its rows are claimed. -/
abbrev Closing (relay : Relay) (story : Story) (action : Action) : Prop :=
  story.Unbroken ∧ relay.Settles story action

theorem alarmed_of_error (relay : Relay) (story : Story) (request : Request) (e : Interrupt) :
    relay.Alarmed e (⟨.ask request, .error e⟩ :: story) :=
  ⟨_, List.mem_cons_self, .unanswered e⟩

/-- The targets of a mark that is answered are held no more. -/
theorem ask_abides {request : Request} (hunbroken : story.Unbroken) (hmark : request.isMark)
    (hids : request.targets.Nodup) (hholds : ∀ id ∈ request.targets, ∃ row, story.Holds row ∧ row.id = id) :
    (Program.ask request).Abides possible relay.Closing relay.Alarmed
      (fun answer s => s.head? = some ⟨.ask request, .ok answer⟩ ∧
        story.Onward request.targets 0 (request.targets.length - request.tally answer) s) story := by
  refine (Program.Interruptible.Abides.ask ⟨hunbroken, hmark, hids, hholds⟩ fun e _ =>
    alarmed_of_error relay story request e).imp ?_
  rintro answer _ ⟨-, rfl⟩
  refine ⟨rfl, .cons ⟨.ask request, .ok answer⟩ ?_ id⟩
  cases request with
  | claim => cases hmark
  | save | markPublished | markFailed | markDead | counts => rfl

theorem now_abides (hunbroken : story.Unbroken) :
    Program.now.Abides possible relay.Closing (fun time s => s = ⟨.now, time⟩ :: story ∧ story.Onward [] 0 0 s)
      story := by
  refine (Program.Abides.perform ⟨hunbroken, trivial⟩).imp ?_
  rintro time _ ⟨-, rfl⟩
  exact ⟨rfl, .cons ⟨.now, time⟩ rfl id⟩

theorem note_abides (hunbroken : story.Unbroken) (m : Measurement) :
    (Program.note m).Abides possible relay.Closing (fun _ s => story.Onward [] 0 0 s) story := by
  refine (Program.Abides.perform ⟨hunbroken, trivial⟩).imp ?_
  rintro _ _ ⟨-, rfl⟩
  exact .cons ⟨.note m, ()⟩ rfl id

theorem noteAll_abides (hunbroken : story.Unbroken) (ms : List Measurement) :
    (Program.noteAll ms).Abides possible relay.Closing (fun _ s => story.Onward [] 0 0 s) story := by
  induction ms generalizing story with
  | nil => exact .pure (.refl story)
  | cons m rest ih =>
    exact .bind (note_abides hunbroken m) fun _ s hs => (ih (hs.unbroken hunbroken)).imp fun _ _ hs' => hs.trans hs'

theorem deliver_abides (hunbroken : story.Unbroken) (measured : Bool) {limit : Span} (parcels : List Parcel)
    (hroom : story.patience + limit.timerMillis ≤ relay.patience) :
    (Program.deliver measured limit parcels).Abides possible relay.Closing
      (fun deliveries s => s = ⟨.deliver measured limit parcels, deliveries⟩ :: story ∧
        story.Onward [] limit.timerMillis 0 s) story := by
  refine (Program.Abides.perform ⟨hunbroken, hroom⟩).imp ?_
  rintro deliveries _ ⟨-, rfl⟩
  exact ⟨rfl, .cons ⟨.deliver measured limit parcels, deliveries⟩ rfl id⟩

/-- Rows are marked as of the time that the clock shows. -/
theorem mark_abides {β : Type} {request : Instant → Request} {ids : List Int}
    {rest : (time : Instant) → (request time).Answer → Program.Interruptible β} {post : β → Story → Prop}
    (hunbroken : story.Unbroken) (hmark : ∀ time, (request time).isMark)
    (htargets : ∀ time, (request time).targets = ids) (hids : ids.Nodup)
    (hholds : ∀ id ∈ ids, ∃ row, story.Holds row ∧ row.id = id)
    (hrest : ∀ time answer s, s.head? = some ⟨.ask (request time), .ok answer⟩ →
      story.Onward ids 0 (ids.length - (request time).tally answer) s →
      (rest time answer).Abides possible relay.Closing relay.Alarmed post s) :
    (liftM Program.now >>= fun time => Program.ask (request time) >>= rest time :
      Program.Interruptible β).Abides possible relay.Closing relay.Alarmed post story := by
  refine .bind (.lift (now_abides hunbroken)) fun time s ⟨_, hs⟩ => ?_
  have hheld : ∀ id ∈ ids, ∃ row, s.Holds row ∧ row.id = id := fun id hid => by
    obtain ⟨row, hrow, rfl⟩ := hholds id hid
    exact ⟨row, hs.holds hrow List.not_mem_nil, rfl⟩
  rw [← htargets time] at hids hheld
  refine .bind (ask_abides (hs.unbroken hunbroken) (hmark time) hids hheld) fun answer s' ⟨hhead, hs'⟩ => ?_
  rw [htargets time] at hs'
  exact hrest time answer s' hhead (hs'.after hs)

/-! ### Publishing -/

theorem Publisher.map_fst_outcomes (p : Publisher) (results : List (Row × Except Failure Parcel))
    (deliveries : List Delivery) : (p.outcomes results deliveries).map Prod.fst = results.map Prod.fst := by
  fun_induction Publisher.outcomes p results deliveries with
  | case1 => rfl
  | case2 row failure rest deliveries ih => rw [List.map_cons, ih, List.map_cons]
  | case3 row parcel rest delivery deliveries ih => rw [List.map_cons, ih, List.map_cons]
  | case4 row parcel rest ih => rw [List.map_cons, ih, List.map_cons]

theorem length_chunks {α : Type} (size : Nat) (xs : List α) :
    (chunks size xs).length = Count.groups xs.length (max size 1) := by
  have hsize : 0 < max size 1 := by omega
  fun_induction chunks size xs with
  | case1 => exact (Nat.div_eq_of_lt hsize).symm
  | case2 x rest ih =>
    rw [List.length_cons, ih, List.length_drop]
    exact Count.groups_sub hsize (Nat.succ_pos _)

theorem publishChunk_abides (hunbroken : story.Unbroken) (rows : List Row)
    (hroom : story.patience + relay.publisher.limit.timerMillis ≤ relay.patience) :
    (relay.publisher.publishChunk rows).Abides possible relay.Closing
      (fun outcomes s => outcomes.map Prod.fst = rows ∧ story.Onward [] relay.publisher.limit.timerMillis 0 s)
      story := by
  have hdeliver (story : Story) (hunbroken : story.Unbroken)
      (hroom : story.patience + relay.publisher.limit.timerMillis ≤ relay.patience) : (do
      let deliveries ← Program.deliver relay.publisher.measured relay.publisher.limit
        ((rows.map fun row => (row, relay.publisher.parcel row)).filterMap Publisher.parcelOf?)
      return relay.publisher.outcomes (rows.map fun row => (row, relay.publisher.parcel row)) deliveries
        : Program _).Abides possible relay.Closing
      (fun outcomes s => outcomes.map Prod.fst = rows ∧ story.Onward [] relay.publisher.limit.timerMillis 0 s)
      story := by
    refine .bind (deliver_abides hunbroken _ _ hroom) fun deliveries s ⟨_, hs⟩ => .pure ⟨?_, hs⟩
    rw [Publisher.map_fst_outcomes, List.map_map]
    exact List.map_id rows
  rw [Publisher.publishChunk]
  split
  · refine .bind (noteAll_abides hunbroken _) fun _ s hs => ?_
    refine (hdeliver s (hs.unbroken hunbroken) ?_).imp fun outcomes s' ⟨hrows, hs'⟩ => ⟨hrows, ?_⟩
    · have := hs.patience
      omega
    · exact hs'.after hs
  · exact hdeliver story hunbroken hroom

theorem publishChunks_abides (hunbroken : story.Unbroken) (chunks : List (List Row))
    (hroom : story.patience + chunks.length * relay.publisher.limit.timerMillis ≤ relay.patience) :
    (relay.publisher.publishChunks chunks).Abides possible relay.Closing
      (fun outcomes s => outcomes.map Prod.fst = chunks.flatten ∧
        story.Onward [] (chunks.length * relay.publisher.limit.timerMillis) 0 s) story := by
  induction chunks generalizing story with
  | nil =>
    rw [List.length_nil, Nat.zero_mul]
    exact .pure ⟨rfl, .refl story⟩
  | cons chunk rest ih =>
    rw [List.length_cons, Nat.succ_mul] at hroom ⊢
    rw [Publisher.publishChunks]
    refine .bind (publishChunk_abides hunbroken chunk (by omega)) fun first s ⟨hfirst, hs⟩ => ?_
    have := hs.patience
    refine .bind (ih (hs.unbroken hunbroken) (by omega)) fun others s' ⟨hothers, hs'⟩ => .pure ⟨?_, ?_⟩
    · rw [List.map_append, hfirst, hothers, List.flatten_cons]
    · rw [Nat.add_comm]
      exact hs.trans hs'

theorem process_abides (hunbroken : story.Unbroken) (rows : List Row)
    (hroom : story.patience + Count.groups rows.length (max relay.publisher.chunk 1) *
      relay.publisher.limit.timerMillis ≤ relay.patience) :
    (relay.publisher.process rows).Abides possible relay.Closing
      (fun batch s => (∃ outcomes, batch = .ofOutcomes outcomes ∧ outcomes.map Prod.fst = rows) ∧
        story.Onward [] (Count.groups rows.length (max relay.publisher.chunk 1) *
          relay.publisher.limit.timerMillis) 0 s) story := by
  rw [← length_chunks] at hroom ⊢
  refine .bind (publishChunks_abides hunbroken _ hroom) fun outcomes s ⟨hrows, hs⟩ => .pure ⟨⟨outcomes, rfl, ?_⟩, hs⟩
  rw [hrows, flatten_chunks]

/-- Each row of a batch was delivered or failed. -/
theorem Batch.perm_ofOutcomes (outcomes : List (Row × Option Failure)) :
    List.Perm ((Batch.ofOutcomes outcomes).delivered ++ (Batch.ofOutcomes outcomes).failed.map fun f => f.row.id)
      ((outcomes.map Prod.fst).map Row.id) := by
  induction outcomes with
  | nil => exact .nil
  | cons outcome rest ih =>
    obtain ⟨row, failure⟩ := outcome
    cases failure with
    | none => exact ih.cons row.id
    | some failure => exact List.perm_middle.trans (ih.cons row.id)

/-- The failed rows of a batch are some of its rows, in order. -/
theorem Batch.failed_sublist (outcomes : List (Row × Option Failure)) :
    ((Batch.ofOutcomes outcomes).failed.map FailedRow.row).Sublist (outcomes.map Prod.fst) := by
  induction outcomes with
  | nil => exact .slnil
  | cons outcome rest ih =>
    obtain ⟨row, failure⟩ := outcome
    cases failure with
    | none => exact ih.cons row
    | some failure => exact ih.cons_cons row

theorem Batch.row_mem_of_failed {outcomes : List (Row × Option Failure)} {failed : FailedRow}
    (h : failed ∈ (Batch.ofOutcomes outcomes).failed) : failed.row ∈ outcomes.map Prod.fst :=
  (failed_sublist outcomes).subset (List.mem_map_of_mem h)

/-! ### Recording -/

theorem recordDelivered_abides (hunbroken : story.Unbroken) {ids : List Int} (hids : ids.Nodup)
    (hholds : ∀ id ∈ ids, ∃ row, story.Holds row ∧ row.id = id) (report : Report) :
    (recordDelivered ids report).Abides possible relay.Closing relay.Alarmed
      (fun report' s => ∃ missed, story.Onward ids 0 missed s ∧ report'.skipped = report.skipped + missed)
      story := by
  rw [recordDelivered]
  split
  · next hempty =>
    rw [List.isEmpty_iff] at hempty
    subst hempty
    exact .pure ⟨0, .refl story, rfl⟩
  · refine mark_abides hunbroken (fun _ => rfl) (fun _ => rfl) hids hholds fun now marked s hhead hs => ?_
    dsimp only
    split
    · next hmore => exact .bind (.throw ⟨_, List.mem_of_head? hhead, .overcounted hmore⟩) fun _ _ h => h
    · exact .pure ⟨_, hs, rfl⟩

theorem bury_abides (hunbroken : story.Unbroken) {failed : FailedRow} (hholds : story.Holds failed.row)
    (hroom : story.patience + relay.graveyard.limit.timerMillis ≤ relay.patience) (delay : Span) :
    (relay.graveyard.bury failed delay).Abides possible relay.Closing relay.Alarmed
      (fun burial s => ∃ missed, story.Onward [failed.row.id] relay.graveyard.limit.timerMillis missed s ∧
        ∀ report : Report, (report.addBurial burial).skipped = report.skipped + missed) story := by
  rw [Graveyard.bury]
  refine .bind (.lift (now_abides hunbroken)) fun now s ⟨_, hs⟩ => ?_
  have := hs.patience
  refine .bind (.lift (deliver_abides (hs.unbroken hunbroken) _ _ (by omega))) fun deliveries s₁ ⟨hdeliver, hs₁⟩ => ?_
  have hproblem : (liftM (relay.graveyard.problem (deliveries.headD .timedOut)) :
      Program.Interruptible (Option String)).Abides possible relay.Closing relay.Alarmed (fun _ s => s = s₁) s₁ := by
    refine .ofExcept ?_
    cases hhead : deliveries.headD .timedOut with
    | delivered | refused | timedOut => rfl
    | crashed text =>
      have hzip : (relay.graveyard.letter failed now, .crashed text) ∈
          [relay.graveyard.letter failed now].zip deliveries := by
        cases deliveries with
        | nil => cases hhead
        | cons delivery rest =>
          rw [List.headD_cons] at hhead
          rw [hhead]
          exact List.mem_cons_self
      subst hdeliver
      exact ⟨_, List.mem_cons_self, .crashed hzip rfl⟩
  refine .bind hproblem ?_
  rintro problem s₂ rfl
  have hposted := hs₁.after hs
  have hheld : ∀ id ∈ [failed.row.id], ∃ row, s₂.Holds row ∧ row.id = id :=
    List.forall_mem_singleton.2 ⟨_, hposted.holds hholds List.not_mem_nil, rfl⟩
  -- Whether the row is to be dead or to be kept, the store is asked once, right after the clock is read.
  split <;>
  · refine mark_abides (hposted.unbroken hunbroken) (fun _ => rfl) (fun _ => rfl) (List.nodup_singleton _) hheld
      fun time marked s₃ _ h₃ => .pure ⟨_, hposted.before h₃, ?_⟩
    intro report
    cases marked <;> rfl

theorem recordFailed_abides (hunbroken : story.Unbroken) {failed : FailedRow} (hholds : story.Holds failed.row)
    (hroom : story.patience + relay.graveyard.limit.timerMillis ≤ relay.patience) (report : Report) :
    (relay.recordFailed failed report).Abides possible relay.Closing relay.Alarmed
      (fun report' s => ∃ missed, story.Onward [failed.row.id] relay.graveyard.limit.timerMillis missed s ∧
        report'.skipped = report.skipped + missed) story := by
  rw [recordFailed]
  refine .bind (.lift (note_abides hunbroken _)) fun _ s hs => ?_
  have := hs.patience
  have hheld := hs.holds hholds List.not_mem_nil
  split
  · refine mark_abides (hs.unbroken hunbroken) (fun _ => rfl) (fun _ => rfl) (List.nodup_singleton _)
      (List.forall_mem_singleton.2 ⟨_, hheld, rfl⟩) fun now marked s₁ _ h₁ => ?_
    refine .pure ⟨_, (h₁.after hs).mono (Nat.zero_le _), ?_⟩
    cases marked <;> rfl
  · refine .bind (bury_abides (hs.unbroken hunbroken) hheld (by omega) _) fun burial s₁ ⟨missed, h₁, hreport⟩ => ?_
    exact .pure ⟨missed, h₁.after hs, hreport report⟩

theorem recordAllFailed_abides (hunbroken : story.Unbroken) {failures : List FailedRow}
    (hids : (failures.map fun failed => failed.row.id).Nodup) (hholds : ∀ failed ∈ failures, story.Holds failed.row)
    (hroom : story.patience + failures.length * relay.graveyard.limit.timerMillis ≤ relay.patience)
    (report : Report) :
    (relay.recordAllFailed failures report).Abides possible relay.Closing relay.Alarmed
      (fun report' s => ∃ missed, story.Onward (failures.map fun failed => failed.row.id)
        (failures.length * relay.graveyard.limit.timerMillis) missed s ∧
        report'.skipped = report.skipped + missed) story := by
  induction failures generalizing story report with
  | nil =>
    rw [List.length_nil, Nat.zero_mul]
    exact .pure ⟨0, .refl story, rfl⟩
  | cons failed rest ih =>
    obtain ⟨hfirst, hrest⟩ := List.nodup_cons.1 hids
    obtain ⟨hheld, hothers⟩ := List.forall_mem_cons.1 hholds
    rw [List.length_cons, Nat.succ_mul] at hroom ⊢
    rw [recordAllFailed]
    refine .bind (recordFailed_abides hunbroken hheld (by omega) report) fun report₁ s ⟨missed, hs, hreport⟩ => ?_
    have := hs.patience
    have hkept : ∀ other ∈ rest, s.Holds other.row := fun other hother => by
      refine hs.holds (hothers other hother) fun hid => hfirst (List.mem_map.2 ⟨other, hother, ?_⟩)
      exact List.mem_singleton.1 hid
    refine (ih (hs.unbroken hunbroken) hrest hkept (by omega) report₁).imp ?_
    rintro report₂ s' ⟨missed', hs', hreport'⟩
    refine ⟨missed + missed', ?_, by rw [hreport', hreport, Nat.add_assoc]⟩
    rw [Nat.add_comm (rest.length * _)]
    exact hs.trans hs'

/-! ### Ticks -/

/-- What a tick does once its rows are claimed. -/
def work (relay : Relay) (rows : List Row) : Program.Interruptible Report := do
  if rows.isEmpty then return {}
  let batch ← relay.publisher.process rows
  let report ← recordDelivered batch.delivered { claimed := rows.length }
  relay.recordAllFailed batch.failed report

theorem tickAt_eq (relay : Relay) (now : Instant) :
    relay.tickAt now =
      Program.ask (.claim relay.config.partition relay.config.batchSize now relay.config.stuck) >>= relay.work := rfl

/-- A tick with rows that it just claimed. -/
theorem work_abides {rows : List Row} (hunbroken : story.Unbroken) (hholds : ∀ row ∈ rows, story.Holds row)
    (hids : (rows.map Row.id).Nodup) (hlength : rows.length ≤ relay.config.batchSize) (hpatience : story.patience = 0)
    (hmissed : story.missed = 0) :
    (relay.work rows).Abides possible relay.Closing relay.Alarmed
      (fun report s => s.Unbroken ∧ report.skipped = s.missed) story := by
  rw [work]
  split
  · exact .pure ⟨hunbroken, hmissed.symm⟩
  · -- The chunks and the rows of the batch are at most those that the patience is for.
    have hchunks : Count.groups rows.length (max relay.publisher.chunk 1) * relay.publisher.limit.timerMillis ≤
        Count.groups relay.config.batchSize (max relay.publisher.chunk 1) * relay.publisher.limit.timerMillis :=
      Nat.mul_le_mul_right _ (Count.groups_le_groups (by omega) hlength)
    have hrows : rows.length * relay.graveyard.limit.timerMillis ≤
        relay.config.batchSize * relay.graveyard.limit.timerMillis := Nat.mul_le_mul_right _ hlength
    have hall : relay.patience = Count.groups relay.config.batchSize (max relay.publisher.chunk 1) *
      relay.publisher.limit.timerMillis + relay.config.batchSize * relay.graveyard.limit.timerMillis := rfl
    refine .bind (.lift (process_abides hunbroken rows (by omega))) ?_
    rintro _ s ⟨⟨outcomes, rfl, houtcomes⟩, hs⟩
    have := hs.patience
    have hperm := Batch.perm_ofOutcomes outcomes
    rw [houtcomes] at hperm
    obtain ⟨hdelivered, hfailed, hapart⟩ := List.nodup_append.1 (hperm.nodup_iff.2 hids)
    have hfailures : (Batch.ofOutcomes outcomes).failed.length * relay.graveyard.limit.timerMillis ≤
        rows.length * relay.graveyard.limit.timerMillis := by
      refine Nat.mul_le_mul_right _ ?_
      have := hperm.length_eq
      rw [List.length_append, List.length_map, List.length_map] at this
      omega
    have hheld : ∀ id ∈ (Batch.ofOutcomes outcomes).delivered, ∃ row, s.Holds row ∧ row.id = id := fun id hid => by
      obtain ⟨row, hrow, rfl⟩ := List.mem_map.1 (hperm.subset (List.mem_append_left _ hid))
      exact ⟨row, hs.holds (hholds row hrow) List.not_mem_nil, rfl⟩
    refine .bind (recordDelivered_abides (hs.unbroken hunbroken) hdelivered hheld _) ?_
    rintro report s₁ ⟨missed, h₁, hreport⟩
    have := h₁.patience
    have hkept : ∀ failed ∈ (Batch.ofOutcomes outcomes).failed, s₁.Holds failed.row := fun failed hmem => by
      have hrow := hholds _ (houtcomes ▸ Batch.row_mem_of_failed hmem)
      refine h₁.holds (hs.holds hrow List.not_mem_nil) fun hid => ?_
      exact hapart _ hid _ (List.mem_map_of_mem hmem) rfl
    refine (recordAllFailed_abides (h₁.unbroken (hs.unbroken hunbroken)) hfailed hkept (by omega) report).imp ?_
    rintro report' s₂ ⟨missed', h₂, hreport'⟩
    refine ⟨h₂.unbroken (h₁.unbroken (hs.unbroken hunbroken)), ?_⟩
    rw [hreport', hreport, h₂.missed, h₁.missed, hs.missed, hmissed]

theorem Settles.proper {dated : Story → Instant → Prop} {action : Action} (h : relay.Settles story action) :
    relay.Proper dated story action := by
  cases action with
  | ask request =>
    cases request with
    | claim => cases h.1
    | counts => trivial
    | save | markPublished | markFailed | markDead => exact h
  | now | elapsed | deliver | note => exact h

/-- A tick claims once, at its start, and reports as skipped what it was to mark and did not. -/
theorem tickAt_abides {dated : Story → Instant → Prop} {now : Instant} (hnew : Story.Onward [] [] 0 0 story)
    (hdated : dated story now) :
    (relay.tickAt now).Abides Credible (relay.Proper dated) relay.Alarmed
      (fun report s => s.Unbroken ∧ report.skipped = s.missed) story := by
  have hunbroken : story.Unbroken := hnew.unbroken (List.forall_mem_nil _)
  rw [tickAt_eq]
  refine .bind (.ask ⟨⟨rfl, rfl, rfl⟩, hdated, hnew⟩ fun e _ => alarmed_of_error relay story _ e) ?_
  rintro rows s ⟨⟨hids, hlength⟩, rfl⟩
  have hfree (row : Row) : row.id ∉ story.marked := fun hmarked => by
    rcases hnew.marked _ hmarked with hnone | hnone <;> cases hnone
  refine Program.Abides.widen (work_abides ?_ ?_ hids hlength ?_ ?_) fun s action h => h.2.proper
  · exact List.forall_mem_cons.2 ⟨id, hunbroken⟩
  · exact fun row hrow => ⟨List.mem_append_left _ hrow, hfree row⟩
  · exact (Nat.zero_add _).trans (Nat.le_zero.1 hnew.patience)
  · rw [Story.missed, hnew.missed]
    rfl

theorem tick_abides (hnew : Story.Onward [] [] 0 0 story) :
    relay.tick.Abides Credible (relay.Proper Story.Dates) relay.Alarmed
      (fun report s => s.Unbroken ∧ report.skipped = s.missed) story :=
  .bind (.lift ((Program.Abides.perform trivial).imp fun time s h => h)) fun time s ⟨_, hs⟩ => by
    subst hs
    exact tickAt_abides ((Story.Onward.cons ⟨.now, time⟩ rfl id).after hnew) rfl

theorem refreshCounts_abides {dated : Story → Instant → Prop} (story : Story) :
    refreshCounts.Abides possible (relay.Proper dated)
      (fun result s => ∀ text, result = .error text → relay.Alarmed (.crash text) s) story := by
  refine .bind (.perform trivial) fun result s ⟨_, hs⟩ => ?_
  subst hs
  cases result with
  | ok counts => exact .bind (.perform trivial) fun _ _ _ => .pure nofun
  | error e =>
    cases e with
    | fault => exact .pure nofun
    | crash text =>
      refine .pure ?_
      rintro _ ⟨⟩
      exact alarmed_of_error relay story .counts _

/-- A tick that is counted: whatever becomes of it, it is counted once, and only an alarm breaks it off. -/
theorem runTick_abides (stats : Stats) :
    (relay.runTick stats).Abides Credible (relay.Proper Story.Dates)
      (fun result s => result.2.ticks = stats.ticks + 1 ∧
        ∀ text, result.1 = .error text → relay.Alarmed (.crash text) s) [] := by
  refine .bind (.perform trivial) fun start s ⟨_, hs⟩ => ?_
  subst hs
  refine .bind (tick_abides (.cons ⟨.elapsed, start⟩ rfl id)) fun result s hresult => ?_
  cases result with
  | ok report =>
    refine .bind (.perform trivial) fun _ s₁ _ => .bind (.perform trivial) fun _ s₂ _ =>
      .bind (.perform trivial) fun _ s₃ _ => .bind (refreshCounts_abides s₃) fun counted s₄ hcounted =>
      .pure ⟨rfl, fun text htext => ?_⟩
    cases counted with
    | ok => cases htext
    | error => cases htext; exact hcounted _ rfl
  | error e =>
    cases e with
    | crash text =>
      refine .pure ⟨rfl, ?_⟩
      rintro _ ⟨⟩
      exact hresult
    | fault fault =>
      refine .bind (.perform trivial) fun _ s₁ _ => .bind (refreshCounts_abides s₁) fun counted s₂ hcounted =>
        .pure ⟨rfl, fun text htext => ?_⟩
      cases counted with
      | ok => cases htext
      | error => cases htext; exact hcounted _ rfl

end Outbox.Relay
