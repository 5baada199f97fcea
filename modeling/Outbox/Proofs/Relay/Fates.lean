import Outbox.Proofs.Relay.Custody
import Outbox.Proofs.Relay.Undelivered

/-! What becomes of each row of a batch. A broker may treat a parcel by all that was posted before it. In whatever
chunks the rows are delivered their parcels are posted in the same order, so each row has the same outcome: that of its
own parcel. A broker that treats every parcel on its own makes the outcome of a batch that of its parts. -/

namespace Outbox.Relay

open Simulation (Flight Rule)

/-! ### Brokers -/

/-- What a broker does with a parcel after those that were posted before it, in order. -/
abbrev Treatment := List Parcel → Parcel → Rule

/-- The parcels of a story, in the order in which their deliveries started. -/
def Story.started (story : Story) : List Parcel := story.posts.map Prod.fst

/-- The same surroundings with another broker. -/
def Surroundings.treating (env : Surroundings) (treat : Treatment) : Surroundings :=
  { env with
    treat := fun story parcels place => treat (story.started ++ parcels.take place) (parcels.getD place default) }

/-- How a delivery comes out under a time limit. -/
def ruling (limit : Span) (rule : Rule) : Delivery :=
  if rule.delay ≤ limit.timerMillis then rule.ending.delivery else .timedOut

/-- How parcels come out that are posted after others. -/
def Treatment.rulings (treat : Treatment) (limit : Span) : List Parcel → List Parcel → List Delivery
  | _, [] => []
  | started, parcel :: rest =>
    ruling limit (treat started parcel) :: Treatment.rulings treat limit (started ++ [parcel]) rest

section

variable {env : Surroundings} {treat : Treatment} {limit : Span}

theorem getElem?_rulings (started parcels : List Parcel) (place : ℕ) :
    (treat.rulings limit started parcels)[place]? =
      parcels[place]?.map fun parcel => ruling limit (treat (started ++ parcels.take place) parcel) := by
  induction parcels generalizing started place with
  | nil => rfl
  | cons parcel rest ih =>
    cases place with
    | zero => simp [Treatment.rulings]
    | succ place => simp [Treatment.rulings, ih]

theorem deliver_treating (story : Story) (measured : Bool) (parcels : List Parcel) :
    (env.treating treat).deliver story measured limit parcels = treat.rulings limit story.started parcels := by
  refine List.ext_getElem? fun place => ?_
  rw [getElem?_rulings, Surroundings.deliver, List.getElem?_mapIdx]
  cases hparcel : parcels[place]? with
  | none => rfl
  | some parcel =>
    simp [Surroundings.treating, Flight.delivery_depart, ruling, hparcel]

theorem length_rulings (started parcels : List Parcel) :
    (treat.rulings limit started parcels).length = parcels.length := by
  induction parcels generalizing started with
  | nil => rfl
  | cons parcel rest ih => rw [Treatment.rulings, List.length_cons, ih, List.length_cons]

end

/-! ### Rows -/

namespace Publisher

variable {p : Publisher} {env : Surroundings} {treat : Treatment} {s : Scene} {row : Row}

/-- The parcels of the rows that have one. -/
def parcels (p : Publisher) (rows : List Row) : List Parcel :=
  rows.filterMap fun row => (p.parcel row).toOption

/-- What becomes of a row by its own parcel: why it fails, if it does. -/
def fate (p : Publisher) (rule : Parcel → Rule) (row : Row) : Option Failure :=
  match p.parcel row with
  | .error failure => some failure
  | .ok parcel => p.failureOf (ruling p.limit (rule parcel))

/-- The rows with what becomes of them if their parcels are posted after others. -/
def fates (p : Publisher) (treat : Treatment) : List Parcel → List Row → List (Row × Option Failure)
  | _, [] => []
  | started, row :: rest => (row, p.fate (treat started) row) :: p.fates treat (started ++ p.parcels [row]) rest

theorem parcels_cons (row : Row) (rest : List Row) : p.parcels (row :: rest) = p.parcels [row] ++ p.parcels rest := by
  rw [parcels, parcels, parcels, ← List.filterMap_append, List.singleton_append]

theorem parcels_append (a b : List Row) : p.parcels (a ++ b) = p.parcels a ++ p.parcels b := List.filterMap_append

theorem filterMap_parcelOf? (rows : List Row) :
    (rows.map fun row => (row, p.parcel row)).filterMap parcelOf? = p.parcels rows := by
  rw [List.filterMap_map, parcels]
  refine List.filterMap_congr fun row _ => ?_
  rw [Function.comp_apply]
  cases p.parcel row <;> rfl

/-- The rows without a parcel, if durations are counted. -/
def unposted (p : Publisher) (rows : List Row) : List Measurement :=
  if p.measured then List.replicate (rows.length - (p.parcels rows).length) (.publish 0) else []

theorem publishChunk_eq (p : Publisher) (rows : List Row) : p.publishChunk rows = do
    Program.noteAll (p.unposted rows)
    let deliveries ← Program.deliver p.measured p.limit (p.parcels rows)
    return p.outcomes (rows.map fun row => (row, p.parcel row)) deliveries := by
  rw [publishChunk, unposted]
  dsimp only
  rw [filterMap_parcelOf?]
  split <;> rfl

theorem outcomes_rulings (started : List Parcel) (rows : List Row) :
    p.outcomes (rows.map fun row => (row, p.parcel row)) (treat.rulings p.limit started (p.parcels rows)) =
      p.fates treat started rows := by
  induction rows generalizing started with
  | nil => rfl
  | cons row rest ih =>
    have hcons := parcels_cons (p := p) row rest
    rw [fates, fate, List.map_cons, hcons, ← ih]
    cases hparcel : p.parcel row with
    | error failure =>
      have hnone : p.parcels [row] = [] := by simp [parcels, hparcel, Except.toOption]
      rw [hnone, List.append_nil]
      rfl
    | ok parcel =>
      have hsome : p.parcels [row] = [parcel] := by simp [parcels, hparcel, Except.toOption]
      rw [hsome]
      rfl

theorem fates_append (started : List Parcel) (a b : List Row) :
    p.fates treat started (a ++ b) = p.fates treat started a ++ p.fates treat (started ++ p.parcels a) b := by
  induction a generalizing started with
  | nil =>
    rw [List.nil_append, parcels, List.filterMap_nil, List.append_nil]
    rfl
  | cons row rest ih =>
    rw [List.cons_append, fates, fates, ih, List.append_assoc, ← parcels_cons, List.cons_append]

theorem fates_eq_mapIdx (started : List Parcel) (rows : List Row) :
    p.fates treat started rows =
      rows.mapIdx fun place row => (row, p.fate (treat (started ++ p.parcels (rows.take place))) row) := by
  induction rows generalizing started with
  | nil => rfl
  | cons row rest ih =>
    rw [fates, ih, List.mapIdx_cons]
    congr 1
    · simp [parcels]
    · congr 1
      funext place row'
      rw [List.take_succ_cons, parcels_cons row (rest.take place), List.append_assoc]

theorem map_fst_fates (started : List Parcel) (rows : List Row) : (p.fates treat started rows).map Prod.fst = rows := by
  induction rows generalizing started with
  | nil => rfl
  | cons row rest ih => rw [fates, List.map_cons, ih]

/-! ### Why a row fails -/

/-- Why a row fails if its parcel is treated by a rule: it has no parcel, and nothing is posted, or its own delivery
does not end in time, is refused or crashes. -/
inductive Fails (p : Publisher) (rule : Parcel → Rule) (row : Row) : Failure → Prop
  | unreadable {e : Json.ReadError} (h : Message.ofRow row = .error e) : p.Fails rule row (.unreadable e.message)
  | noDestination {message : Message} {e : Topic.Fault} (hmessage : Message.ofRow row = .ok message)
    (h : Topic.resolve p.topicLead row.event.aggregateType = .error e) :
    p.Fails rule row (.noDestination (e.message row.event.aggregateType))
  | late {parcel : Parcel} (h : p.parcel row = .ok parcel) (hlate : p.limit.timerMillis < (rule parcel).delay) :
    p.Fails rule row (.timedOut p.limit)
  | refused {parcel : Parcel} {refusal : Broker.Refusal} (h : p.parcel row = .ok parcel)
    (hdelay : (rule parcel).delay ≤ p.limit.timerMillis) (hending : (rule parcel).ending = .refuse refusal) :
    p.Fails rule row (.ofRefusal refusal)
  | crashed {parcel : Parcel} {text : String} (h : p.parcel row = .ok parcel)
    (hdelay : (rule parcel).delay ≤ p.limit.timerMillis) (hending : (rule parcel).ending = .crash text) :
    p.Fails rule row (.broken (crashReport text))

theorem fate_of_parcel {rule : Parcel → Rule} {parcel : Parcel} (h : p.parcel row = .ok parcel) :
    p.fate rule row = p.failureOf (ruling p.limit (rule parcel)) := by
  rw [fate, h]

theorem fails_of_fate {rule : Parcel → Rule} {failure : Failure} (h : p.fate rule row = some failure) :
    p.Fails rule row failure := by
  cases hparcel : p.parcel row with
  | error e =>
    rw [fate, hparcel] at h
    obtain rfl := Option.some.inj h
    rcases parcel_eq_error hparcel with ⟨e, hmessage, rfl⟩ | ⟨message, e, hmessage, htopic, rfl⟩
    · exact .unreadable hmessage
    · exact .noDestination hmessage htopic
  | ok parcel =>
    rw [fate_of_parcel hparcel, ruling] at h
    split at h
    · next hdelay =>
      cases hending : (rule parcel).ending with
      | accept =>
        rw [hending] at h
        cases h
      | refuse refusal =>
        rw [hending] at h
        cases h
        exact .refused hparcel hdelay hending
      | crash text =>
        rw [hending] at h
        cases h
        exact .crashed hparcel hdelay hending
    · next hdelay =>
      cases h
      exact .late hparcel (Nat.lt_of_not_le hdelay)

theorem fate_of_fails {rule : Parcel → Rule} {failure : Failure} (h : p.Fails rule row failure) :
    p.fate rule row = some failure := by
  cases h with
  | unreadable hmessage =>
    rw [fate, parcel, hmessage]
    rfl
  | noDestination hmessage htopic =>
    rw [fate, parcel, hmessage, htopic]
    rfl
  | late hparcel hlate => rw [fate_of_parcel hparcel, ruling, if_neg (Nat.not_le_of_lt hlate), failureOf]
  | refused hparcel hdelay hending | crashed hparcel hdelay hending =>
    rw [fate_of_parcel hparcel, ruling, if_pos hdelay, hending]
    rfl

/-! ### Batches -/

theorem started_of_posted {s' : Scene} {posts : List (Parcel × Delivery)} (h : Posted s posts s') :
    s'.story.started = s.story.started ++ posts.map Prod.fst := by
  rw [Story.started, h.posts, List.map_append, Story.started]

theorem deliver_treats (measured : Bool) (limit : Span) (parcels : List Parcel) :
    (Program.deliver measured limit parcels).Yields (env.treating treat) (fun deliveries s' =>
      deliveries = treat.rulings limit s.story.started parcels ∧
        s'.story.started = s.story.started ++ parcels) s := by
  refine (deliver_yields measured limit parcels).imp ?_
  rintro _ s' ⟨rfl, hposted⟩
  rw [deliver_treating] at hposted ⊢
  refine ⟨rfl, ?_⟩
  rw [started_of_posted hposted, List.map_fst_zip (Nat.le_of_eq (length_rulings _ _).symm)]

theorem publishChunk_treats (p : Publisher) (rows : List Row) :
    (p.publishChunk rows).Yields (env.treating treat) (fun outcomes s' =>
      outcomes = p.fates treat s.story.started rows ∧ s'.story.started = s.story.started ++ p.parcels rows) s := by
  rw [publishChunk_eq]
  refine .bind (noteAll_yields _) fun _ s₁ h₁ => ?_
  have hsame : s₁.story.started = s.story.started := (started_of_posted h₁).trans (List.append_nil _)
  refine .bind (deliver_treats p.measured p.limit _) ?_
  rintro _ s' ⟨rfl, hstarted⟩
  rw [hsame] at hstarted ⊢
  exact .pure ⟨outcomes_rulings _ _, hstarted⟩

theorem publishChunks_treats (p : Publisher) (chunks : List (List Row)) :
    (p.publishChunks chunks).Yields (env.treating treat) (fun outcomes s' =>
      outcomes = p.fates treat s.story.started chunks.flatten ∧
        s'.story.started = s.story.started ++ p.parcels chunks.flatten) s := by
  induction chunks generalizing s with
  | nil => exact .pure ⟨rfl, (List.append_nil _).symm⟩
  | cons chunk rest ih =>
    rw [publishChunks]
    refine .bind (publishChunk_treats p chunk) ?_
    rintro _ s₁ ⟨rfl, h₁⟩
    refine .bind ih ?_
    rintro _ s₂ ⟨rfl, h₂⟩
    refine .pure ⟨?_, ?_⟩
    · rw [h₁, List.flatten_cons, fates_append]
    · rw [h₂, h₁, List.flatten_cons, parcels_append, List.append_assoc]

/-- Chunks leave no trace in a batch: it is made of the rows one after the other. -/
theorem process_treats (p : Publisher) (env : Surroundings) (treat : Treatment) (rows : List Row) (s : Scene) :
    ((p.process rows).runIn (env.treating treat) s).1 = .ofOutcomes (p.fates treat s.story.started rows) ∧
      ((p.process rows).runIn (env.treating treat) s).2.story.started = s.story.started ++ p.parcels rows := by
  suffices (p.process rows).Yields (env.treating treat) (fun batch s' =>
      batch = .ofOutcomes (p.fates treat s.story.started rows) ∧
        s'.story.started = s.story.started ++ p.parcels rows) s from this
  rw [process]
  refine .bind (publishChunks_treats p _) ?_
  rintro _ s' ⟨rfl, hstarted⟩
  rw [flatten_chunks] at hstarted ⊢
  exact .pure ⟨rfl, hstarted⟩

/-- Another size of the chunks changes no outcome. -/
theorem fates_chunk (p : Publisher) (chunk : ℕ) (started : List Parcel) (rows : List Row) :
    { p with chunk := chunk }.fates treat started rows = p.fates treat started rows := by
  rw [fates_eq_mapIdx, fates_eq_mapIdx]
  rfl

/-- The outcome of a row does not hang on those before it if every parcel is treated on its own. -/
theorem fates_alike (alike : Parcel → Rule) (started : List Parcel) (rows : List Row) :
    p.fates (fun _ => alike) started rows = rows.map fun row => (row, p.fate alike row) := by
  induction rows generalizing started with
  | nil => rfl
  | cons row rest ih => rw [fates, ih, List.map_cons]

end Publisher

theorem Batch.delivered_sublist (outcomes : List (Row × Option Failure)) :
    (Batch.ofOutcomes outcomes).delivered.Sublist ((outcomes.map Prod.fst).map Row.id) := by
  induction outcomes with
  | nil => exact .slnil
  | cons outcome rest ih =>
    obtain ⟨row, failure⟩ := outcome
    cases failure with
    | none => exact ih.cons_cons row.id
    | some failure => exact ih.cons row.id

theorem Batch.ofOutcomes_append (a b : List (Row × Option Failure)) :
    Batch.ofOutcomes (a ++ b) = ⟨(Batch.ofOutcomes a).delivered ++ (Batch.ofOutcomes b).delivered,
      (Batch.ofOutcomes a).failed ++ (Batch.ofOutcomes b).failed⟩ := by
  rw [Batch.ofOutcomes, List.filterMap_append, List.filterMap_append]
  rfl

/-- A failed row is one of the rows, and its failure is that of its own parcel after those of the rows before it. -/
theorem Publisher.exists_of_mem_failed {p : Publisher} {treat : Treatment} {started : List Parcel} {rows : List Row}
    {f : FailedRow} (h : f ∈ (Batch.ofOutcomes (p.fates treat started rows)).failed) :
    f.retryable = f.failure.isTransient ∧ ∃ before after, rows = before ++ f.row :: after ∧
      p.Fails (treat (started ++ p.parcels before)) f.row f.failure := by
  obtain ⟨⟨row, failure⟩, hmem, hfailed⟩ := List.mem_filterMap.1 h
  cases failure with
  | none => cases hfailed
  | some failure =>
    cases hfailed
    refine ⟨rfl, ?_⟩
    rw [Publisher.fates_eq_mapIdx] at hmem
    obtain ⟨place, hplace, heq⟩ := List.mem_mapIdx.1 hmem
    obtain ⟨hrow, hfate⟩ := Prod.mk.inj heq
    subst hrow
    exact ⟨rows.take place, rows.drop (place + 1), by simp, fails_of_fate hfate⟩

theorem Publisher.mem_failed_of_fails {p : Publisher} {treat : Treatment} {started : List Parcel}
    {before after : List Row} {row : Row} {failure : Failure}
    (h : p.Fails (treat (started ++ p.parcels before)) row failure) : ⟨row, failure, failure.isTransient⟩ ∈
      (Batch.ofOutcomes (p.fates treat started (before ++ row :: after))).failed := by
  refine List.mem_filterMap.2 ⟨(row, some failure), ?_, rfl⟩
  rw [Publisher.fates_append, Publisher.fates, fate_of_fails h]
  exact List.mem_append_right _ List.mem_cons_self

/-- A batch loses, doubles and mixes up nothing. With a broker that treats a parcel by those that were posted before
it, in order, each row has the outcome of its own parcel after those of the rows before it, and the parcels are posted
in the order of the rows. The ids of the delivered rows and the failed rows stand in the order of the rows, each row
among one of them once; the failed ones are those whose own delivery fails or that have no parcel, with that failure
and whether it may pass. The size of the chunks changes nothing. If the broker treats every parcel on its own, the
batch of two lists of rows is that of the first and that of the second put together. -/
theorem process_row_by_row (p : Publisher) (env : Surroundings) (treat : Treatment) (rows : List Row) (s : Scene) :
    let started (before : List Row) := s.story.started ++ p.parcels before
    let run := (p.process rows).runIn (env.treating treat) s
    run.1 = .ofOutcomes
      (rows.mapIdx fun place row => (row, p.fate (treat (started (rows.take place))) row)) ∧
    run.2.story.started = started rows ∧
    run.1.delivered.Sublist (rows.map Row.id) ∧ (run.1.failed.map FailedRow.row).Sublist rows ∧
    List.Perm (run.1.delivered ++ run.1.failed.map fun f => f.row.id) (rows.map Row.id) ∧
    (∀ f ∈ run.1.failed, f.retryable = f.failure.isTransient ∧ ∃ before after, rows = before ++ f.row :: after ∧
      p.Fails (treat (started before)) f.row f.failure) ∧
    (∀ before row after failure, rows = before ++ row :: after → p.Fails (treat (started before)) row failure →
      ⟨row, failure, failure.isTransient⟩ ∈ run.1.failed) ∧
    (∀ chunk, (({ p with chunk := chunk } : Publisher).process rows |>.runIn (env.treating treat) s).1 = run.1) ∧
    ∀ (alike : Parcel → Rule) (others : List Row) (s₁ s₂ : Scene),
      let batch (rows : List Row) (s : Scene) := ((p.process rows).runIn (env.treating fun _ => alike) s).1
      batch (rows ++ others) s = ⟨(batch rows s₁).delivered ++ (batch others s₂).delivered,
        (batch rows s₁).failed ++ (batch others s₂).failed⟩ := by
  intro started run
  obtain ⟨hbatch, hstarted⟩ := p.process_treats env treat rows s
  have hfst : (p.fates treat s.story.started rows).map Prod.fst = rows := Publisher.map_fst_fates _ rows
  refine ⟨?_, hstarted, ?_, ?_, ?_, fun f hf => ?_, ?_, fun chunk => ?_, fun alike others s₁ s₂ => ?_⟩
  · rw [← Publisher.fates_eq_mapIdx]
    exact hbatch
  · have hsublist := Batch.delivered_sublist (p.fates treat s.story.started rows)
    rwa [hfst, ← hbatch] at hsublist
  · have hsublist := Batch.failed_sublist (p.fates treat s.story.started rows)
    rwa [hfst, ← hbatch] at hsublist
  · have hperm := Batch.perm_ofOutcomes (p.fates treat s.story.started rows)
    rwa [hfst, ← hbatch] at hperm
  · rw [hbatch] at hf
    exact Publisher.exists_of_mem_failed hf
  · rintro before row after failure rfl hfails
    rw [hbatch]
    exact Publisher.mem_failed_of_fails hfails
  · rw [(Publisher.process_treats _ env treat rows s).1, Publisher.fates_chunk]
    exact hbatch.symm
  · intro batch
    have halike (rows : List Row) (s : Scene) :
        batch rows s = .ofOutcomes (rows.map fun row => (row, p.fate alike row)) := by
      rw [← Publisher.fates_alike alike s.story.started]
      exact (p.process_treats env (fun _ => alike) rows s).1
    rw [halike, halike, halike, List.map_append, Batch.ofOutcomes_append]

/-- A row with a payload. -/
def carrying (id : Int) (payload : Bytes) : Row := .pending {
  id, aggregateType := "Order", aggregateId := "order-1", kind := "OrderPlaced", payload, createdAt := .epoch }

/-- Three rows, the first without a parcel, and a broker that is too slow with the first parcel it gets. -/
theorem slow_row_by_row :
    let p : Publisher := { chunk := 0, limit := .ofMillis 10 }
    let env : Surroundings := {
      now := fun _ => .epoch, elapsed := fun _ => 0, fault := fun _ _ => none, treat := fun _ _ _ => {} }
    let treat : Treatment := fun started _ => if started.isEmpty then { delay := 11 } else {}
    let rows := [carrying 1 [120], carrying 2 [123, 125], carrying 3 [123, 125]]
    let batch := ((p.process rows).runIn (env.treating treat) { table := {} }).1
    batch.delivered = [3] ∧
      batch.failed.map (fun f => (f.row.id, f.failure, f.retryable)) =
        [(1, .unreadable "expected value at line 1 column 1", false), (2, .timedOut (.ofMillis 10), true)] ∧
      ∀ chunk, (({ p with chunk := chunk } : Publisher).process rows |>.runIn (env.treating treat) { table := {} }).1 =
        batch := by
  intro p env treat rows batch
  obtain ⟨hbatch, -, -, -, -, -, -, hchunks, -⟩ := process_row_by_row p env treat rows { table := {} }
  change batch = _ at hbatch
  refine ⟨?_, ?_, hchunks⟩
  · rw [hbatch]
    decide +kernel
  · rw [hbatch]
    decide +kernel

end Outbox.Relay
