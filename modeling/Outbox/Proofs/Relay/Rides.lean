import Outbox.Proofs.Relay.Posting
import Outbox.Proofs.Relay.Timetable

/-! How the delivery of each row of a batch goes in time. A row that has no parcel fails as its chunk starts, and any
other is through when its flight is over. The next chunk starts when all rows of the one before are through. -/

namespace Outbox.Relay

open Simulation (Backend Consecutive Flight World duration duration_le_iff)

/-! ### Times -/

/-- The latest of times that are counted from a start. -/
def latest (start : Nat) (times : List Nat) : Nat := times.foldr max start

theorem latest_le_iff {start bound : Nat} {times : List Nat} :
    latest start times ≤ bound ↔ start ≤ bound ∧ ∀ time ∈ times, time ≤ bound := by
  induction times with
  | nil => exact (and_iff_left (List.forall_mem_nil _)).symm
  | cons time rest ih =>
    rw [List.forall_mem_cons, and_left_comm, ← ih]
    exact Nat.max_le

theorem le_latest (start : Nat) (times : List Nat) : start ≤ latest start times :=
  (latest_le_iff.1 (Nat.le_refl _)).1

theorem le_latest_of_mem {start time : Nat} {times : List Nat} (h : time ∈ times) : time ≤ latest start times :=
  (latest_le_iff.1 (Nat.le_refl _)).2 time h

/-! ### Rides -/

/-- What was posted by a flight, and how it came out. -/
def postOf (f : Flight) : Parcel × Delivery := (f.parcel, f.delivery)

/-- A sending with the start of its chunk, and with the flight of its parcel, if it has one. -/
structure Ride (p : Publisher) extends Sending p where
  start : Nat
  flights : List Flight
  left : ∀ f ∈ flights, f.LeftAt p.limit start
  posts_eq : posts = flights.map postOf

variable {p : Publisher}

namespace Ride

/-- When it is known what became of the row. -/
def finish (ride : Ride p) : Nat := latest ride.start (ride.flights.map Flight.finish)

theorem finish_le_iff {ride : Ride p} {bound : Nat} :
    ride.finish ≤ bound ↔ ride.start ≤ bound ∧ ∀ f ∈ ride.flights, f.finish ≤ bound := by
  rw [finish, latest_le_iff, List.forall_mem_map]

theorem mem_delivered {rides : List (Ride p)} (hids : (rides.map (·.row.id)).Nodup) {ride : Ride p}
    (hride : ride ∈ rides) :
    ride.row.id ∈ (Batch.ofOutcomes (rides.map (·.outcome))).delivered ↔ ride.failure = none := by
  have hmem := @Sending.mem_deliveredIds p (rides.map Ride.toSending) (by rwa [List.map_map]) _
    (List.mem_map_of_mem hride)
  rwa [← Sending.filterMap_deliveredId?, List.map_map] at hmem

/-- Rows and the flights of their parcels make rides. -/
theorem exists_of_flights {start : Nat} (rows : List Row) (flights : List Flight)
    (hparcels : flights.map Flight.parcel = p.parcels rows) (hleft : ∀ f ∈ flights, f.LeftAt p.limit start) :
    ∃ rides : List (Ride p), rides.map (·.row) = rows ∧ (∀ ride ∈ rides, ride.start = start) ∧
      rides.flatMap Ride.flights = flights ∧
      rides.map (·.outcome) = p.outcomes (rows.map fun row => (row, p.parcel row)) (flights.map Flight.delivery) := by
  induction rows generalizing flights with
  | nil =>
    obtain rfl := List.map_eq_nil_iff.1 hparcels
    exact ⟨[], rfl, List.forall_mem_nil _, rfl, rfl⟩
  | cons row rest ih =>
    rw [Publisher.parcels, List.filterMap_cons] at hparcels
    cases hparcel : p.parcel row with
    | error failure =>
      rw [hparcel] at hparcels
      obtain ⟨rides, hrows, hstart, hflights, houtcomes⟩ := ih flights hparcels hleft
      let ride : Ride p := ⟨⟨row, [], some failure, .unaddressed hparcel⟩, start, [], List.forall_mem_nil _, rfl⟩
      refine ⟨ride :: rides, congrArg (row :: ·) hrows, List.forall_mem_cons.2 ⟨rfl, hstart⟩, hflights, ?_⟩
      rw [List.map_cons, houtcomes, List.map_cons, hparcel, Publisher.outcomes]
      rfl
    | ok parcel =>
      rw [hparcel] at hparcels
      cases flights with
      | nil => cases hparcels
      | cons f flights =>
        obtain ⟨rfl, hothers⟩ := List.cons.inj hparcels
        obtain ⟨hf, hleft⟩ := List.forall_mem_cons.1 hleft
        obtain ⟨rides, hrows, hstart, hflights, houtcomes⟩ := ih flights hothers hleft
        let ride : Ride p :=
          ⟨⟨row, [postOf f], p.failureOf f.delivery, .posted f.delivery hparcel⟩, start, [f],
            List.forall_mem_singleton.2 hf, rfl⟩
        refine ⟨ride :: rides, congrArg (row :: ·) hrows, List.forall_mem_cons.2 ⟨rfl, hstart⟩,
          congrArg (f :: ·) hflights, ?_⟩
        rw [List.map_cons, houtcomes, List.map_cons, List.map_cons, hparcel, Publisher.outcomes]
        rfl

end Ride

/-! ### Chunks -/

/-- Chunks of rides from a time to another: those of a chunk start together, and the next chunk starts when they are
all through. -/
inductive Course (p : Publisher) : Nat → List (List (Ride p)) → Nat → Prop
  | nil (time : Nat) : Course p time [] time
  | cons {time finish : Nat} {chunk : List (Ride p)} {later : List (List (Ride p))}
    (hstart : ∀ ride ∈ chunk, ride.start = time)
    (hlater : Course p (latest time (chunk.map Ride.finish)) later finish) :
    Course p time (chunk :: later) finish

theorem Course.finish_le {time finish : Nat} {chunks : List (List (Ride p))} (h : Course p time chunks finish) :
    time ≤ finish ∧ ∀ ride ∈ chunks.flatten, ride.finish ≤ finish := by
  induction h with
  | nil => exact ⟨Nat.le_refl _, List.forall_mem_nil _⟩
  | @cons time finish chunk later hstart hlater ih =>
    obtain ⟨htime, hchunk⟩ := latest_le_iff.1 ih.1
    rw [List.forall_mem_map] at hchunk
    exact ⟨htime, List.forall_mem_append.2 ⟨hchunk, ih.2⟩⟩

/-- A chunk is through when the last of its flights is over. -/
theorem latest_finish {time : Nat} {rides : List (Ride p)} (h : ∀ ride ∈ rides, ride.start = time) :
    latest time (rides.map Ride.finish) = time + duration p.limit (rides.flatMap Ride.flights) := by
  refine eq_of_forall_ge_iff fun bound => ?_
  rw [latest_le_iff, List.forall_mem_map]
  constructor
  · rintro ⟨htime, hbound⟩
    have hlongest : duration p.limit (rides.flatMap Ride.flights) ≤ bound - time := duration_le_iff.2 fun f hf => by
      obtain ⟨ride, hride, hf⟩ := List.mem_flatMap.1 hf
      have hfinish := (Ride.finish_le_iff.1 (hbound ride hride)).2 f hf
      rw [(ride.left f hf).finish_eq, h ride hride] at hfinish
      omega
    omega
  · intro hbound
    refine ⟨by omega, fun ride hride => Ride.finish_le_iff.2 ⟨by rw [h ride hride]; omega, fun f hf => ?_⟩⟩
    have hlongest : min f.rule.delay p.limit.timerMillis ≤ duration p.limit (rides.flatMap Ride.flights) :=
      duration_le_iff.1 (Nat.le_refl _) f (List.mem_flatMap.2 ⟨ride, hride, hf⟩)
    rw [(ride.left f hf).finish_eq, h ride hride]
    omega

/-- Groups of flights one after the other are those of chunks of rides. -/
theorem exists_course {time finish : Nat} {groups : List (List Flight)}
    (h : Consecutive p.limit time groups finish) {chunks : List (List Row)}
    (hparcels : groups.map (List.map Flight.parcel) = chunks.map p.parcels) :
    ∃ course : List (List (Ride p)), Course p time course finish ∧ course.map (List.map (·.row)) = chunks ∧
      course.flatten.flatMap Ride.flights = groups.flatten ∧
      course.flatten.map (·.outcome) =
        p.outcomes (chunks.flatten.map fun row => (row, p.parcel row)) (groups.flatten.map Flight.delivery) := by
  induction h generalizing chunks with
  | nil time =>
    obtain rfl := List.map_eq_nil_iff.1 hparcels.symm
    exact ⟨[], .nil time, rfl, rfl, rfl⟩
  | @cons time finish group later hgroup hlater ih =>
    cases chunks with
    | nil => cases hparcels
    | cons chunk rest =>
      obtain ⟨hfirst, hrest⟩ := List.cons.inj hparcels
      obtain ⟨rides, hrows, hstart, hflights, houtcomes⟩ := Ride.exists_of_flights chunk group hfirst hgroup
      obtain ⟨course, hcourse, hchunks, hgroups, hothers⟩ := ih hrest
      have hlength : (group.map Flight.delivery).length =
          ((chunk.map fun row => (row, p.parcel row)).filterMap Publisher.parcelOf?).length := by
        rw [Publisher.filterMap_parcelOf?, ← hfirst, List.length_map, List.length_map]
      refine ⟨rides :: course, .cons hstart ?_, ?_, ?_, ?_⟩
      · rwa [latest_finish hstart, hflights]
      · rw [List.map_cons, hrows, hchunks]
      · rw [List.flatten_cons, List.flatMap_append, hflights, hgroups, List.flatten_cons]
      · rw [List.flatten_cons, List.map_append, houtcomes, hothers, ← p.outcomes_append hlength, ← List.map_append,
          ← List.map_append, List.flatten_cons, List.flatten_cons]

/-- A batch is delivered by the rides of its rows, in chunks. -/
theorem process_course {σ : Type} (p : Publisher) (b : Backend σ) (w : World σ) (rows : List Row) :
    ∃ course : List (List (Ride p)), Course p w.elapsed course (w.complete b (p.process rows)).2.elapsed ∧
      course.map (List.map (·.row)) = chunks p.chunk rows ∧
      course.flatten.flatMap Ride.flights = (w.flights b (p.process rows)).flatten ∧
      (w.complete b (p.process rows)).1 = .ofOutcomes (course.flatten.map (·.outcome)) := by
  obtain ⟨outcomes, hbatch, h⟩ := exists_timetable p b w rows
  obtain ⟨course, hcourse, hchunks, hflights, houtcomes⟩ := exists_course h.consecutive h.parcels
  exact ⟨course, hcourse, hchunks, hflights, by rw [hbatch, h.outcomes, houtcomes]⟩

end Outbox.Relay
