import Outbox.Proofs.Relay.Bookkeeping
import Outbox.Proofs.Relay.Rides
import Outbox.Proofs.Time.Shifts

/-! Programs that come to a result in a world, with the flights on the way to it. In a world in which nobody else
changes the table and no parcel for a topic crashes, the time and the table are all that a relay's actions change. -/

namespace Outbox

open Relay (Action Course Delivery Graveyard Parcel Program Publisher Batch Ride Story chunks process_course
  process_posts ruling)

namespace Simulation.World

/-! ### Results -/

section

variable {σ α β : Type} {b : Backend σ} {w : World σ} {post : α → List Flight → World σ → Prop}

/-- The program is not interrupted in the world, and a condition holds of its result, its flights and the world
after it. -/
def Ends (b : Backend σ) (w : World σ) (x : Program.Interruptible α) (post : α → List Flight → World σ → Prop) :
    Prop :=
  ∃ a, (w.complete b x.run).1 = .ok a ∧ post a (w.flights b x.run).flatten (w.complete b x.run).2

namespace Ends

theorem pure {a : α} (h : post a [] w) : w.Ends b (Pure.pure a) post := ⟨a, rfl, h⟩

theorem imp {post' : α → List Flight → World σ → Prop} {x : Program.Interruptible α} (hx : w.Ends b x post)
    (h : ∀ a flights w', post a flights w' → post' a flights w') : w.Ends b x post' :=
  let ⟨a, ha, hpost⟩ := hx
  ⟨a, ha, h _ _ _ hpost⟩

theorem bind {x : Program.Interruptible α} {f : α → Program.Interruptible β}
    {post' : β → List Flight → World σ → Prop} (hx : w.Ends b x post)
    (hf : ∀ a flights w', post a flights w' → w'.Ends b (f a) fun c later => post' c (flights ++ later)) :
    w.Ends b (x >>= f) post' := by
  obtain ⟨a, ha, hpost⟩ := hx
  obtain ⟨c, hc, hpost'⟩ := hf _ _ _ hpost
  have hcomplete := complete_bind (b := b) x.run (ExceptT.bindCont f) w
  have hflights := flights_bind (b := b) x.run (ExceptT.bindCont f) w
  rw [ha] at hcomplete hflights
  refine ⟨c, (congrArg Prod.fst hcomplete).trans hc, ?_⟩
  rw [← List.flatten_append] at hpost'
  change post' c (w.flights b (x.run >>= ExceptT.bindCont f)).flatten
    (w.complete b (x.run >>= ExceptT.bindCont f)).2
  rw [hcomplete, hflights]
  exact hpost'

theorem lift {x : Program α} (h : post (w.complete b x).1 (w.flights b x).flatten (w.complete b x).2) :
    w.Ends b (liftM x) post := by
  let wrap (a : α) : Program (Except Interrupt α) := .done (.ok a)
  have hcomplete := complete_bind (b := b) x wrap w
  have hflights := flights_bind (b := b) x wrap w
  refine ⟨(w.complete b x).1, congrArg Prod.fst hcomplete, ?_⟩
  change post _ (w.flights b (x >>= wrap)).flatten (w.complete b (x >>= wrap)).2
  rw [hcomplete, hflights]
  exact (List.append_nil _).symm ▸ h

theorem ofExcept {result : Except Interrupt α} {a : α} (h : result = .ok a) :
    w.Ends b (liftM result) fun c flights w' => c = a ∧ flights = [] ∧ w' = w := by
  subst h
  exact ⟨a, rfl, rfl, rfl, rfl⟩

end Ends

end

/-! ### Fair worlds -/

/-- A world whose clock moves and showed `start` at first, in which nobody else marks rows and no parcel for the topic
crashes, at a time and with a table. -/
structure At (w : World Table) (start : Instant) (topic : String) (time : Nat) (t : Table) : Prop where
  moving : w.moving
  start_eq : w.start = start
  quiet : w.IsQuiet
  spares : w.Spares topic
  elapsed_eq : w.elapsed = time
  contents_eq : w.contents = t

theorem moving_depart {σ : Type} (w : World σ) (measured : Bool) (limit : Span) (parcels : List Parcel) :
    (w.depart measured limit parcels).2.moving = w.moving := by
  induction parcels generalizing w with
  | nil => rfl
  | cons parcel rest ih => exact ih { w with rules := (chooseRule parcel w.rules).2 }

theorem moving_landAll {σ : Type} (b : Backend σ) (w : World σ) (flights : List Flight) :
    (w.landAll b flights).moving = w.moving := by
  induction flights generalizing w with
  | nil => rfl
  | cons flight rest ih =>
    refine (ih (w.land b flight)).trans ?_
    rw [land, arrive]
    cases flight.rule.ending <;> (split <;> split) <;> rfl

namespace At

variable {w : World Table} {start : Instant} {topic : String} {time : Nat} {t : Table}

theorem now_eq (h : w.At start topic time t) : w.now = start.later time := by
  rw [now, if_pos h.moving, h.start_eq, h.elapsed_eq, Instant.later]

theorem deliver (h : w.At start topic time t) (measured : Bool) (limit : Span) (parcels : List Parcel) :
    (w.respond tableBackend (.deliver measured limit parcels)).2.At start topic
      (w.respond tableBackend (.deliver measured limit parcels)).2.elapsed t := by
  obtain ⟨hrules, hstart⟩ := w.depart_keeps measured limit parcels
  obtain ⟨hkept, hsame⟩ := landAll_keeps tableBackend (w.depart measured limit parcels).2
    (inOrder (w.depart measured limit parcels).1)
  obtain ⟨hquiet, hcontents⟩ := perform_deliver h.quiet measured limit parcels
  refine ⟨?_, (hsame.trans hstart).trans h.start_eq, hquiet, fun earlier parcel text htopic => ?_, rfl,
    hcontents.trans h.contents_eq⟩
  · exact ((moving_landAll _ _ _).trans (moving_depart _ _ _ _)).trans h.moving
  · have hspares := h.spares (parcels ++ earlier) parcel text htopic
    rw [rulesAfter, List.foldl_append] at hspares
    rw [show (w.respond tableBackend (.deliver measured limit parcels)).2.rules = rulesAfter w.rules parcels from
      hkept.trans hrules]
    exact hspares

/-- A batch is delivered by the rides of its rows, and only the time changes. -/
theorem process (h : w.At start topic time t) (p : Publisher) (rows : List Row) :
    w.Ends tableBackend (liftM (p.process rows)) fun batch flights w' => ∃ course finish, Course p time course finish ∧
      course.map (List.map (·.row)) = chunks p.chunk rows ∧ course.flatten.flatMap Ride.flights = flights ∧
      batch = .ofOutcomes (course.flatten.map (·.outcome)) ∧ w'.At start topic finish t := by
  obtain ⟨course, hcourse, hchunks, hflights, hbatch⟩ := process_course p tableBackend w rows
  obtain ⟨-, -, finish, hafter⟩ := complete_abides tableBackend
    (fun (w' : World Table) (_ : Story) => ∃ time, w'.At start topic time t)
    (@process_posts (fun _ => True) p rows []) ⟨time, h⟩ fun w' story action ⟨time, hat⟩ hposts => by
      refine ⟨trivial, ?_⟩
      cases action with
      | note => exact ⟨time, hat.moving, hat.start_eq, hat.quiet, hat.spares, hat.elapsed_eq, hat.contents_eq⟩
      | deliver measured limit parcels => exact ⟨_, hat.deliver measured limit parcels⟩
      | ask | now | elapsed => cases hposts
  rw [h.elapsed_eq, hafter.elapsed_eq] at hcourse
  exact .lift ⟨course, finish, hcourse, hchunks, hflights, hbatch, hafter⟩

theorem readClock (h : w.At start topic time t) :
    w.Ends tableBackend (liftM Program.now) fun now flights w' =>
      now = start.later time ∧ flights = [] ∧ w'.At start topic time t :=
  .lift ⟨h.now_eq, rfl, h⟩

theorem note (h : w.At start topic time t) (m : Measurement) :
    w.Ends tableBackend (liftM (Program.note m)) fun _ flights w' => flights = [] ∧ w'.At start topic time t :=
  .lift ⟨rfl, h.moving, h.start_eq, h.quiet, h.spares, h.elapsed_eq, h.contents_eq⟩

/-- A call of the table takes no time. -/
theorem ask (h : w.At start topic time t) {request : Request} {a : request.Answer} {t' : Table}
    (hmark : request.isMark ∨ ∃ claim : Claim, request = claim.request) (ha : t.answer request = (.ok a, t')) :
    w.Ends tableBackend (Program.ask request) fun b flights w' =>
      b = a ∧ flights = [] ∧ w'.At start topic time t' := by
  have hclock : w.setClock request = w := by
    obtain hmark | ⟨claim, rfl⟩ := hmark
    · cases request with
      | save => cases hmark
      | claim | markPublished | markFailed | markDead | counts => rfl
    · rfl
  have hanswer : w.ask tableBackend request = (.ok a, { w with contents := t' }) := by
    rw [← h.contents_eq] at ha
    rw [World.ask, hclock]
    change ((w.contents.answer request).1, { w with contents := (w.contents.answer request).2 }) = _
    rw [ha]
  have hcomplete : w.complete tableBackend (Program.ask request).run = w.ask tableBackend request := rfl
  refine ⟨a, by rw [hcomplete, hanswer], rfl, rfl, ?_⟩
  rw [hcomplete, hanswer]
  exact ⟨h.moving, h.start_eq, h.quiet, h.spares, h.elapsed_eq, rfl⟩

/-- A parcel is delivered on a flight of its own, which does not crash if it is for the topic that is spared. -/
theorem deliverOne (h : w.At start topic time t) (limit : Span) (parcel : Parcel) :
    w.Ends tableBackend (liftM (Program.deliver false limit [parcel])) fun deliveries flights w' =>
      ∃ f : Flight, f.LeftAt limit time ∧ f.parcel = parcel ∧ deliveries = [f.delivery] ∧ flights = [f] ∧
        (parcel.topic = topic → ∀ text, f.delivery ≠ .crashed text) ∧ w'.At start topic f.finish t := by
  have hafter := h.deliver false limit [parcel]
  obtain ⟨-, -, hleft⟩ := w.depart_spec false limit [parcel]
  obtain ⟨f, hf⟩ : ∃ f, (w.depart false limit [parcel]).1 = [f] := ⟨_, rfl⟩
  have hrule : f.rule = (chooseRule parcel w.rules).1 := by
    cases hf
    rfl
  have hparcel : f.parcel = parcel := by
    cases hf
    rfl
  rw [hf, List.forall_mem_singleton] at hleft
  have htime : (w.respond tableBackend (.deliver false limit [parcel])).2.elapsed = f.finish := by
    have hdeparted : (w.depart false limit [parcel]).2.elapsed = w.elapsed := rfl
    have hlanded := elapsed_landAll_inOrder (b := tableBackend) (w := (w.depart false limit [parcel]).2)
      (List.forall_mem_singleton.2 (hdeparted ▸ hleft))
    change ((w.depart false limit [parcel]).2.landAll tableBackend (inOrder (w.depart false limit [parcel]).1)).elapsed
      = _
    rw [hf, hlanded, hdeparted, hleft.finish_eq, duration, List.map_singleton, List.foldr_cons, List.foldr_nil,
      Nat.max_zero]
  rw [htime] at hafter
  refine .lift ⟨f, h.elapsed_eq ▸ hleft, hparcel, ?_, ?_, fun htopic text hcrash => ?_, hafter⟩
  · exact congrArg (List.map Flight.delivery) hf
  · change ([(w.depart false limit [parcel]).1] : List (List Flight)).flatten = _
    rw [hf, List.flatten_singleton]
  · have hspares := h.spares [] parcel text htopic
    rw [hleft.delivery_eq, ruling, hrule] at hcrash
    split at hcrash
    · change (chooseRule parcel w.rules).1.ending ≠ _ at hspares
      cases hending : (chooseRule parcel w.rules).1.ending with
      | accept | refuse =>
        rw [hending] at hcrash
        cases hcrash
      | crash other =>
        rw [hending] at hcrash hspares
        cases hcrash
        exact hspares rfl
    · cases hcrash

end At

end Simulation.World

end Outbox
