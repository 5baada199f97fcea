import Mathlib.Data.List.Nodup
import Outbox.Proofs.Relay.Surroundings
import Outbox.Relay.Batch

/-! What is posted for a batch of rows. In whatever chunks they are delivered, each row whose parcel can be made
is posted once, in the order of the rows, and its outcome is that of its own delivery. -/

namespace Outbox.Relay

open Simulation (Flight)

variable {env : Surroundings} {s s' : Scene}

/-! ### Posts -/

/-- The parcels of a story with what became of them, in order. -/
def Story.posts : Story → List (Parcel × Delivery)
  | [] => []
  | ⟨.deliver _ _ parcels, deliveries⟩ :: earlier => Story.posts earlier ++ parcels.zip deliveries
  | _ :: earlier => Story.posts earlier

/-- Nothing but posts happened. -/
structure Posted (s : Scene) (posts : List (Parcel × Delivery)) (s' : Scene) : Prop where
  table : s'.table = s.table
  posts : s'.story.posts = s.story.posts ++ posts
  suffix : s.story <:+ s'.story

theorem Posted.trans {s₁ s₂ : Scene} {first others : List (Parcel × Delivery)} (h : Posted s first s₁)
    (h' : Posted s₁ others s₂) : Posted s (first ++ others) s₂ where
  table := h'.table.trans h.table
  posts := by rw [h'.posts, h.posts, List.append_assoc]
  suffix := h.suffix.trans h'.suffix

/-- An action that is neither a call nor a delivery leaves no trace but its answer. -/
theorem posted_cons {exchange : Exchange} (h : Story.posts (exchange :: s.story) = s.story.posts) :
    Posted s [] { s with story := exchange :: s.story } :=
  ⟨rfl, by rw [h, List.append_nil], List.suffix_cons _ _⟩

theorem now_yields :
    Program.now.Yields env (fun time s' => Posted s [] s' ∧ [(⟨.now, time⟩ : Exchange)] <+: s'.story) s :=
  (Program.Yields.perform .now).imp fun time _ ⟨_, hs⟩ => by
    subst hs
    exact ⟨posted_cons rfl, s.story, rfl⟩

theorem note_yields (m : Measurement) : (Program.note m).Yields env (fun _ s' => Posted s [] s') s :=
  (Program.Yields.perform (.note m)).imp fun _ _ ⟨_, hs⟩ => by
    subst hs
    exact posted_cons rfl

theorem noteAll_yields (ms : List Measurement) :
    (Program.noteAll ms).Yields env (fun _ s' => Posted s [] s') s := by
  induction ms generalizing s with
  | nil => exact .pure ⟨rfl, (List.append_nil _).symm, List.suffix_rfl⟩
  | cons m rest ih =>
    exact .bind (note_yields m) fun _ s₁ h₁ => ih.imp fun _ s₂ h₂ => h₁.trans h₂

theorem deliver_yields (measured : Bool) (limit : Span) (parcels : List Parcel) :
    (Program.deliver measured limit parcels).Yields env (fun deliveries s' =>
      deliveries = env.deliver s.story measured limit parcels ∧ Posted s (parcels.zip deliveries) s') s :=
  (Program.Yields.perform (.deliver measured limit parcels)).imp fun _ _ ⟨ha, hs⟩ => by
    subst hs
    exact ⟨ha, rfl, rfl, List.suffix_cons _ _⟩

/-! ### Messages -/

/-- What is posted for a row: nothing if its parcel cannot be made, or else its parcel. -/
inductive Publisher.Sent (p : Publisher) (row : Row) : List (Parcel × Delivery) → Option Failure → Prop
  | unaddressed {failure : Failure} (h : p.parcel row = .error failure) : p.Sent row [] (some failure)
  | posted {parcel : Parcel} (delivery : Delivery) (h : p.parcel row = .ok parcel) :
    p.Sent row [(parcel, delivery)] (p.failureOf delivery)

/-- A row with what was posted for it, and why that failed. -/
structure Sending (p : Publisher) where
  row : Row
  posts : List (Parcel × Delivery)
  failure : Option Failure
  sent : p.Sent row posts failure

namespace Sending

variable {p : Publisher}

def outcome (sending : Sending p) : Row × Option Failure := (sending.row, sending.failure)

/-- A sending did not fail exactly if its one parcel was delivered. -/
theorem failure_eq_none_iff (sending : Sending p) :
    sending.failure = none ↔ ∃ parcel, sending.posts = [(parcel, .delivered)] := by
  obtain ⟨row, posts, failure, hsent⟩ := sending
  cases hsent with
  | unaddressed => simp
  | posted delivery => simp [Publisher.failureOf_eq_none]

/-- Rows and the deliveries of their parcels make sendings. -/
theorem exists_of_deliveries (rows : List Row) (deliveries : List Delivery)
    (h : deliveries.length = ((rows.map fun row => (row, p.parcel row)).filterMap Publisher.parcelOf?).length) :
    ∃ sendings : List (Sending p), sendings.map row = rows ∧
      sendings.map outcome = p.outcomes (rows.map fun row => (row, p.parcel row)) deliveries ∧
      sendings.flatMap posts =
        ((rows.map fun row => (row, p.parcel row)).filterMap Publisher.parcelOf?).zip deliveries := by
  induction rows generalizing deliveries with
  | nil => exact ⟨[], rfl, rfl, rfl⟩
  | cons row rest ih =>
    cases hparcel : p.parcel row with
    | error failure =>
      simp only [List.map_cons, hparcel, List.filterMap_cons, Publisher.parcelOf?] at h ⊢
      obtain ⟨sendings, hrows, houtcomes, hposts⟩ := ih deliveries h
      refine ⟨⟨row, [], some failure, .unaddressed hparcel⟩ :: sendings, ?_, ?_, ?_⟩
      · rw [List.map_cons, hrows]
      · rw [List.map_cons, houtcomes, Publisher.outcomes]
        rfl
      · rw [List.flatMap_cons, hposts]
        rfl
    | ok parcel =>
      simp only [List.map_cons, hparcel, List.filterMap_cons, Publisher.parcelOf?] at h ⊢
      cases deliveries with
      | nil => cases h
      | cons delivery deliveries =>
        obtain ⟨sendings, hrows, houtcomes, hposts⟩ := ih deliveries (Nat.succ.inj h)
        refine ⟨⟨row, [(parcel, delivery)], p.failureOf delivery, .posted delivery hparcel⟩ :: sendings, ?_, ?_, ?_⟩
        · rw [List.map_cons, hrows]
        · rw [List.map_cons, houtcomes, Publisher.outcomes]
          rfl
        · rw [List.flatMap_cons, hposts]
          rfl

end Sending

/-- What becomes of the parcels that a publisher delivers is as it is meant to be. -/
def Surroundings.Carries (env : Surroundings) (p : Publisher) (fate : Delivery → Prop) : Prop :=
  ∀ story parcels, ∀ delivery ∈ env.deliver story p.measured p.limit parcels, fate delivery

section Chunks

variable {p : Publisher} {fate : Delivery → Prop}

theorem publishChunk_yields (hcarries : env.Carries p fate) (rows : List Row) :
    (p.publishChunk rows).Yields env (fun outcomes s' => ∃ sendings : List (Sending p),
      sendings.map Sending.row = rows ∧ outcomes = sendings.map Sending.outcome ∧
      (∀ post ∈ sendings.flatMap Sending.posts, fate post.2) ∧ Posted s (sendings.flatMap Sending.posts) s') s := by
  have hdeliver (s : Scene) : (do
      let deliveries ← Program.deliver p.measured p.limit
        ((rows.map fun row => (row, p.parcel row)).filterMap Publisher.parcelOf?)
      return p.outcomes (rows.map fun row => (row, p.parcel row)) deliveries : Program _).Yields env
      (fun outcomes s' => ∃ sendings : List (Sending p), sendings.map Sending.row = rows ∧
        outcomes = sendings.map Sending.outcome ∧ (∀ post ∈ sendings.flatMap Sending.posts, fate post.2) ∧
        Posted s (sendings.flatMap Sending.posts) s') s := by
    refine .bind (deliver_yields _ _ _) ?_
    rintro deliveries s' ⟨rfl, hposted⟩
    obtain ⟨sendings, hrows, houtcomes, hposts⟩ := Sending.exists_of_deliveries rows _
      (List.length_mapIdx : (env.deliver s.story p.measured p.limit _).length = _)
    refine .pure ⟨sendings, hrows, houtcomes.symm, fun post hpost => ?_, hposts ▸ hposted⟩
    rw [hposts] at hpost
    exact hcarries _ _ _ (List.of_mem_zip hpost).2
  rw [Publisher.publishChunk]
  split
  · refine .bind (noteAll_yields _) fun _ s₁ h₁ => (hdeliver s₁).imp ?_
    rintro outcomes s₂ ⟨sendings, hrows, houtcomes, hfates, h₂⟩
    exact ⟨sendings, hrows, houtcomes, hfates, h₁.trans h₂⟩
  · exact hdeliver s

theorem publishChunks_yields (hcarries : env.Carries p fate) (chunks : List (List Row)) :
    (p.publishChunks chunks).Yields env (fun outcomes s' => ∃ sendings : List (Sending p),
      sendings.map Sending.row = chunks.flatten ∧ outcomes = sendings.map Sending.outcome ∧
      (∀ post ∈ sendings.flatMap Sending.posts, fate post.2) ∧ Posted s (sendings.flatMap Sending.posts) s') s := by
  induction chunks generalizing s with
  | nil => exact .pure ⟨[], rfl, rfl, List.forall_mem_nil _, rfl, (List.append_nil _).symm, List.suffix_rfl⟩
  | cons chunk rest ih =>
    rw [Publisher.publishChunks]
    refine .bind (publishChunk_yields hcarries chunk) ?_
    rintro _ s₁ ⟨first, hfirst, rfl, hfates, h₁⟩
    refine .bind ih ?_
    rintro _ s₂ ⟨others, hothers, rfl, hfates', h₂⟩
    refine .pure ⟨first ++ others, ?_, List.map_append.symm, ?_, ?_⟩
    · rw [List.map_append, hfirst, hothers, List.flatten_cons]
    · rw [List.flatMap_append]
      exact List.forall_mem_append.2 ⟨hfates, hfates'⟩
    · rw [List.flatMap_append]
      exact h₁.trans h₂

theorem process_yields (hcarries : env.Carries p fate) (rows : List Row) :
    (p.process rows).Yields env (fun batch s' => ∃ sendings : List (Sending p),
      sendings.map Sending.row = rows ∧ batch = .ofOutcomes (sendings.map Sending.outcome) ∧
      (∀ post ∈ sendings.flatMap Sending.posts, fate post.2) ∧ Posted s (sendings.flatMap Sending.posts) s') s := by
  rw [Publisher.process]
  refine .bind (publishChunks_yields hcarries _) ?_
  rintro _ s' ⟨sendings, hrows, rfl, hfates, hposted⟩
  exact .pure ⟨sendings, by rw [hrows, flatten_chunks], rfl, hfates, hposted⟩

end Chunks

/-! ### Deliveries that succeeded -/

namespace Sending

variable {p : Publisher} {sendings : List (Sending p)}

/-- The ids of the rows whose delivery succeeded. -/
def deliveredIds (sendings : List (Sending p)) : List Int :=
  (sendings.filter fun sending => sending.failure.isNone).map fun sending => sending.row.id

theorem filterMap_deliveredId? (sendings : List (Sending p)) :
    (sendings.map outcome).filterMap deliveredId? = deliveredIds sendings := by
  induction sendings with
  | nil => rfl
  | cons sending rest ih =>
    rw [List.map_cons, List.filterMap_cons, ih, deliveredIds, deliveredIds, List.filter_cons, outcome]
    cases sending.failure <;> rfl

theorem nodup_deliveredIds (hids : (sendings.map fun sending => sending.row.id).Nodup) :
    (deliveredIds sendings).Nodup :=
  hids.sublist (List.filter_sublist.map _)

theorem length_deliveredIds (sendings : List (Sending p)) :
    (deliveredIds sendings).length = sendings.countP fun sending => sending.failure.isNone := by
  rw [deliveredIds, List.length_map, List.countP_eq_length_filter]

theorem mem_deliveredIds (hids : (sendings.map fun sending => sending.row.id).Nodup) {sending : Sending p}
    (h : sending ∈ sendings) : sending.row.id ∈ deliveredIds sendings ↔ sending.failure = none := by
  rw [deliveredIds, List.mem_map]
  constructor
  · rintro ⟨other, hother, heq⟩
    obtain ⟨hother, hnone⟩ := List.mem_filter.1 hother
    rw [← List.inj_on_of_nodup_map hids hother h heq]
    exact Option.isNone_iff_eq_none.1 hnone
  · intro hnone
    exact ⟨sending, List.mem_filter.2 ⟨h, by rw [hnone]; rfl⟩, rfl⟩

theorem exists_of_mem_deliveredIds {id : Int} (h : id ∈ deliveredIds sendings) :
    ∃ sending ∈ sendings, sending.row.id = id := by
  obtain ⟨sending, hsending, rfl⟩ := List.mem_map.1 h
  exact ⟨sending, List.mem_of_mem_filter hsending, rfl⟩

end Sending

end Outbox.Relay
