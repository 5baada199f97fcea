import Mathlib.Data.List.TakeDrop
import Mathlib.Data.List.TakeWhile
import Outbox.Proofs.Relay.Worlds
import Outbox.Simulation.Dispatcher

/-! Ticks without end. Whatever a store whose calls may fail and a broker do, only a crash on a dead letter breaks a
tick off, or a claim whose threshold lies before all dates. Without these each tick is counted and answered, and the
dispatcher's scheduler asks for the next one when its pause is over. A crash on a dead letter ends the dispatcher. -/

namespace Outbox

namespace Instant

theorem le_after (i : Instant) (s : Span) : i ≤ i.after s := by
  change i.nanos ≤ _
  rw [after, plus?, ofNanos?]
  split
  · exact Int.le_add_of_nonneg_right (Int.natCast_nonneg _)
  · exact i.le_last

theorem isSome_minus? {i j : Instant} {s : Span} (hle : i ≤ j) (h : (i.minus? s).isSome) : (j.minus? s).isSome := by
  change i.nanos ≤ j.nanos at hle
  have hlast := j.le_last
  rw [minus?, ofNanos?] at h ⊢
  split at h
  · next hi =>
    rw [dif_pos ⟨by omega, by omega⟩]
    rfl
  · cases h

end Instant

namespace Simulation

open Relay (Action Delivery Exchange Parcel Program Stats Story)

/-! ### Rules -/

/-- The rules that are left when parcels have been delivered. -/
def rulesAfter (rules : List Rule) (parcels : List Parcel) : List Rule :=
  parcels.foldl (fun rules parcel => (chooseRule parcel rules).2) rules

/-- The rule of a parcel is one that covers it, and keeps its topic and its ending when it is used. -/
theorem chooseRule_spec (parcel : Parcel) (rules : List Rule) :
    ((chooseRule parcel rules).1 = .plain ∨
      (chooseRule parcel rules).1 ∈ rules ∧ (chooseRule parcel rules).1.covers parcel) ∧
      ∀ rule ∈ (chooseRule parcel rules).2, ∃ old ∈ rules, rule.topic = old.topic ∧ rule.ending = old.ending := by
  induction rules with
  | nil => exact ⟨.inl rfl, fun _ h => absurd h List.not_mem_nil⟩
  | cons first rest ih =>
    have hkept (rule : Rule) (hrule : rule ∈ rest) :
        ∃ old ∈ first :: rest, rule.topic = old.topic ∧ rule.ending = old.ending :=
      ⟨rule, List.mem_cons_of_mem _ hrule, rfl, rfl⟩
    rw [chooseRule]
    split
    · next hcovers =>
      exact ⟨.inr ⟨List.mem_cons_self, hcovers⟩, List.forall_mem_cons.2 ⟨⟨first, List.mem_cons_self, rfl, rfl⟩, hkept⟩⟩
    · refine ⟨ih.1.imp_right fun h => ⟨List.mem_cons_of_mem _ h.1, h.2⟩, List.forall_mem_cons.2
        ⟨⟨first, List.mem_cons_self, rfl, rfl⟩, fun rule hrule => ?_⟩⟩
      obtain ⟨old, hold, hsame⟩ := ih.2 rule hrule
      exact ⟨old, List.mem_cons_of_mem _ hold, hsame⟩

namespace World

variable {σ α : Type} {b : Backend σ} {w : World σ}

/-- Whatever has been delivered before, the broker does not crash on a parcel for a topic. -/
def Spares (w : World σ) (topic : String) : Prop :=
  ∀ earlier parcel text, parcel.topic = topic →
    (chooseRule parcel (rulesAfter w.rules earlier)).1.ending ≠ .crash text

/-- A broker spares a topic if no rule is to crash that may be for it. -/
theorem spares_of_rules {topic : String}
    (h : ∀ rule ∈ w.rules, rule.topic.all (· == topic) → ∀ text, rule.ending ≠ .crash text) : w.Spares topic := by
  intro earlier
  rw [rulesAfter]
  generalize w.rules = rules at h
  induction earlier generalizing rules with
  | nil =>
    rintro parcel text rfl
    obtain hplain | ⟨hmem, hcovers⟩ := (chooseRule_spec parcel rules).1
    · rw [List.foldl_nil, hplain]
      exact nofun
    · simp only [Rule.covers, Bool.and_eq_true] at hcovers
      exact h _ hmem hcovers.1.2 text
  | cons first rest ih =>
    refine ih _ fun rule hrule htopic text => ?_
    obtain ⟨old, hold, htopic', hending⟩ := (chooseRule_spec first rules).2 rule hrule
    rw [hending]
    exact h old hold (htopic' ▸ htopic) text

theorem depart_keeps (w : World σ) (measured : Bool) (limit : Span) (parcels : List Parcel) :
    (w.depart measured limit parcels).2.rules = rulesAfter w.rules parcels ∧
      (w.depart measured limit parcels).2.start = w.start := by
  induction parcels generalizing w with
  | nil => exact ⟨rfl, rfl⟩
  | cons parcel rest ih => exact ih { w with rules := (chooseRule parcel w.rules).2 }

/-- A delivery ends as the rule says that is its turn, or it is cut off. -/
theorem exists_rule_of_mem (w : World σ) (measured : Bool) (limit : Span) {parcels : List Parcel} {parcel : Parcel}
    {delivery : Delivery}
    (h : (parcel, delivery) ∈ parcels.zip ((w.depart measured limit parcels).1.map Flight.delivery)) :
    ∃ earlier,
      delivery = (chooseRule parcel (rulesAfter w.rules earlier)).1.ending.delivery ∨ delivery = .timedOut := by
  induction parcels generalizing w with
  | nil => cases h
  | cons first rest ih =>
    rw [depart, List.map_cons, List.zip_cons_cons, List.mem_cons] at h
    rcases h with heq | h
    · cases heq
      refine ⟨[], ?_⟩
      rw [Flight.delivery_depart]
      split
      · exact .inl rfl
      · exact .inr rfl
    · obtain ⟨earlier, hdelivery⟩ := ih _ h
      exact ⟨first :: earlier, hdelivery⟩

theorem landAll_keeps (b : Backend σ) (w : World σ) (flights : List Flight) :
    (w.landAll b flights).rules = w.rules ∧ (w.landAll b flights).start = w.start := by
  induction flights generalizing w with
  | nil => exact ⟨rfl, rfl⟩
  | cons flight rest ih =>
    obtain ⟨hrules, hstart⟩ := ih (w.land b flight)
    have hland : (w.land b flight).rules = w.rules ∧ (w.land b flight).start = w.start := by
      rw [land, arrive]
      cases flight.rule.ending <;> (split <;> split) <;> exact ⟨rfl, rfl⟩
    exact ⟨hrules.trans hland.1, hstart.trans hland.2⟩

/-- Without a time limit a program runs to its end. -/
theorem run_none (b : Backend σ) (w : World σ) (x : Program α) :
    w.run b none x = (.finished (w.complete b x).1, (w.complete b x).2) := by
  induction x generalizing w with
  | done a => rfl
  | act action next ih =>
    rw [complete_respond]
    cases action with
    | ask | now | elapsed | note => exact ih _ _
    | deliver measured limit parcels =>
      have hspan (flights : List Flight) : (flights.span fun flight => isDue none flight.finish) = (flights, []) := by
        rw [List.span_eq_takeWhile_dropWhile]
        exact Prod.ext (List.takeWhile_eq_self_iff.2 fun _ _ => rfl) (List.dropWhile_eq_nil_iff.2 fun _ _ => rfl)
      rw [run]
      dsimp only
      rw [hspan]
      exact ih _ _

/-! ### Calm -/

variable {relay : Relay} {disruptions : List Disruption}

/-- A world that breaks no tick of a relay off. -/
structure Calm (relay : Relay) (w : World σ) : Prop where
  spares : w.Spares relay.graveyard.topic
  dated : (w.start.minus? relay.config.stuck).isSome

theorem Calm.now (h : w.Calm relay) : (w.now.minus? relay.config.stuck).isSome := by
  rw [World.now]
  split
  · exact Instant.isSome_minus? (Instant.le_after _ _) h.dated
  · exact h.dated

/-- What a relay does keeps a world calm. -/
theorem Calm.respond {dated : Story → Instant → Prop} {story : Story} {action : Action} (h : w.Calm relay)
    (hproper : relay.Proper dated story action) (b : Backend σ) : (w.respond b action).2.Calm relay := by
  cases action with
  | now | elapsed | note => exact ⟨h.spares, h.dated⟩
  | ask request =>
    cases request with
    | save => cases hproper.1
    | claim | markPublished | markFailed | markDead | counts => exact ⟨h.spares, h.dated⟩
  | deliver measured limit parcels =>
    obtain ⟨hleft, hdeparted⟩ := w.depart_keeps measured limit parcels
    obtain ⟨hkept, hlanded⟩ := landAll_keeps b (w.depart measured limit parcels).2
      (inOrder (w.depart measured limit parcels).1)
    have hrules : (w.respond b (.deliver measured limit parcels)).2.rules = rulesAfter w.rules parcels :=
      hkept.trans hleft
    have hstart : (w.respond b (.deliver measured limit parcels)).2.start = w.start := hlanded.trans hdeparted
    refine ⟨fun earlier parcel text htopic => ?_, by rw [hstart]; exact h.dated⟩
    have hspares := h.spares (parcels ++ earlier) parcel text htopic
    rw [rulesAfter, List.foldl_append] at hspares
    rw [hrules]
    exact hspares

/-- The answer of a table whose calls may fail is a fault or the answer of some table. -/
theorem respond_ask (disruptions : List Disruption) (w : World (Disruption.State Table)) (request : Request) :
    (∃ fault, (w.respond (tableBackend.disrupted disruptions) (.ask request)).1 = .error (.fault fault)) ∨
      ∃ t : Table, (w.respond (tableBackend.disrupted disruptions) (.ask request)).1 = (t.answer request).1 := by
  change (∃ fault, (Disruption.answer Table.store disruptions request _).1 = .error (.fault fault)) ∨
    ∃ t : Table, (Disruption.answer Table.store disruptions request _).1 = (t.answer request).1
  rw [Disruption.answer]
  dsimp only
  split
  · exact .inl ⟨_, rfl⟩
  · exact .inr ⟨_, rfl⟩

/-- Nothing that a calm world answers raises an alarm, if a claim is as of a time that the world has shown. -/
theorem Calm.no_alarm {story : Story} {action : Action} {w : World (Disruption.State Table)} (h : w.Calm relay)
    (hproper : relay.Proper Story.Dates story action)
    (hshown : ∀ t, story.Dates t → (t.minus? relay.config.stuck).isSome) (text : String) :
    ¬relay.Alarm ⟨action, (w.respond (tableBackend.disrupted disruptions) action).1⟩ (.crash text) := by
  intro halarm
  generalize hanswer : (w.respond (tableBackend.disrupted disruptions) action).1 = answer at halarm
  cases halarm with
  | @unanswered request =>
    obtain ⟨fault, hfault⟩ | ⟨t, ht⟩ := respond_ask disruptions w request
    · cases hanswer.symm.trans hfault
    · have hcrash := ht.symm.trans hanswer
      cases request with
      | claim p limit now stuck =>
        obtain ⟨⟨-, -, rfl⟩, hdates, -⟩ := hproper
        obtain ⟨⟨rows, t'⟩, hclaim⟩ := Option.isSome_iff_exists.1 (t.claim_isSome (hshown now hdates) p limit)
        rw [Table.answer_claim hclaim] at hcrash
        cases hcrash
      | save | markPublished | markFailed | markDead | counts => cases hcrash
  | @overcounted ids now count hmore =>
    obtain ⟨fault, hfault⟩ | ⟨t, ht⟩ := respond_ask disruptions w (.markPublished ids now)
    · cases hanswer.symm.trans hfault
    · cases ht.symm.trans hanswer
      exact absurd (t.fst_markPublished_le now ids) (Nat.not_le_of_lt hmore)
  | @crashed measured limit parcels deliveries parcel _ hmem htopic =>
    subst hanswer
    obtain ⟨earlier, hrule | hcut⟩ := w.exists_rule_of_mem measured limit hmem
    · have hspares := h.spares earlier parcel text htopic
      generalize (chooseRule parcel (rulesAfter w.rules earlier)).1.ending = ending at hrule hspares
      cases ending with
      | accept | refuse => cases hrule
      | crash => cases hrule; exact hspares rfl
    · cases hcut

/-- A tick in a calm world is counted and comes to an end that the dispatcher can take, and the world stays calm. -/
theorem Calm.runTick {w : World (Disruption.State Table)} (h : w.Calm relay) (disruptions : List Disruption)
    (stats : Stats) :
    ∃ report stats' w', w.run (tableBackend.disrupted disruptions) none (relay.runTick stats) =
        (.finished (.ok report, stats'), w') ∧
      stats'.ticks = stats.ticks + 1 ∧ w'.Calm relay := by
  let inv (w : World (Disruption.State Table)) (story : Story) : Prop :=
    w.Calm relay ∧ (∀ t, story.Dates t → (t.minus? relay.config.stuck).isSome) ∧
      ∀ exchange ∈ story, ∀ text, ¬relay.Alarm exchange (.crash text)
  obtain ⟨s, ⟨hticks, halarm⟩, hcalm, -, hnone⟩ := complete_abides (tableBackend.disrupted disruptions) inv
    (relay.runTick_abides stats) ⟨h, fun _ => nofun, List.forall_mem_nil _⟩
    fun w story action ⟨hw, hshown, hnone⟩ hproper => by
      refine ⟨credible_respond disruptions w action, hw.respond hproper _, fun t ht => ?_,
        List.forall_mem_cons.2 ⟨fun text => hw.no_alarm hproper hshown text, hnone⟩⟩
      cases action with
      | now => cases ht; exact hw.now
      | ask | elapsed | note | deliver => cases ht
  rw [run_none]
  generalize w.complete (tableBackend.disrupted disruptions) (relay.runTick stats) = result at hticks halarm hcalm
  obtain ⟨⟨result, stats'⟩, w'⟩ := result
  cases result with
  | ok report => exact ⟨report, stats', w', rfl, hticks, hcalm⟩
  | error text =>
    obtain ⟨exchange, hexchange, hcrash⟩ := halarm text rfl
    exact absurd hcrash (hnone exchange hexchange text)

end World

/-! ### The scheduler -/

namespace Dispatcher

variable {σ : Type} {relay : Relay} {disruptions : List Disruption}

/-- Whether a tick has ended with an answer. -/
def isAnswer : Progress TickResult → Bool
  | .finished (.ok _, _) => true
  | _ => false

/-- The dispatcher and its world after steps one after the other; none if at some point nothing is left to happen. -/
def steps (b : Backend σ) (d : Dispatcher) (w : World σ) : Nat → Option (Dispatcher × World σ)
  | 0 => some (d, w)
  | n + 1 => (steps b d w n).bind fun (d, w) => d.step b none w

theorem steps_succ {b : Backend σ} {d d' : Dispatcher} {w w' : World σ} {n : Nat} (h : steps b d w n = some (d', w')) :
    steps b d w (n + 1) = d'.step b none w' := by
  rw [steps, h]
  rfl

/-- The dispatcher of a relay is alive and free after a number of ticks, in a calm world. -/
structure Steady (relay : Relay) (ticks : Nat) (d : Dispatcher) (w : World σ) : Prop where
  same : d.relay = relay
  alive : d.alive
  free : d.busy = none
  ticks : d.stats.ticks = ticks
  calm : w.Calm relay

/-- The scheduler has asked for the next tick. -/
structure Asked (relay : Relay) (ticks : Nat) (d : Dispatcher) (w : World σ) : Prop
    extends Steady relay ticks d w where
  mailbox : d.mailbox = [.runTick .scheduler]
  scheduler : d.scheduler = .asking

/-- The scheduler has its reply, and pauses from now on. -/
structure Paused (relay : Relay) (ticks : Nat) (d : Dispatcher) (w : World σ) : Prop
    extends Steady relay ticks d w where
  mailbox : d.mailbox = []
  scheduler : d.scheduler = .pausing (w.elapsed + relay.config.pause.timerMillis)

theorem Asked.step {ticks : Nat} {d : Dispatcher} {w : World (Disruption.State Table)} (h : Asked relay ticks d w)
    (disruptions : List Disruption) :
    ∃ d' w', d.step (tableBackend.disrupted disruptions) none w = some (d', w') ∧ Paused relay (ticks + 1) d' w' := by
  obtain rfl := h.same
  obtain ⟨report, stats, w', hrun, hticks, hcalm⟩ := h.calm.runTick disruptions d.stats
  rw [Dispatcher.step, h.free, h.mailbox]
  dsimp only
  rw [handle, hrun]
  refine ⟨_, w', rfl, ⟨rfl, h.alive, rfl, ?_, hcalm⟩, rfl, rfl⟩
  rw [← h.ticks]
  exact hticks

theorem Paused.step {ticks : Nat} {d : Dispatcher} {w : World σ} (h : Paused relay ticks d w) (b : Backend σ) :
    ∃ d' w', d.step b none w = some (d', w') ∧ Asked relay ticks d' w' ∧
      w'.elapsed = w.elapsed + relay.config.pause.timerMillis := by
  have hwake : d.nextWake? none = some (w.elapsed + relay.config.pause.timerMillis) := by
    rw [nextWake?, h.scheduler]
    rfl
  have hasks : d.wake (w.elapsed + relay.config.pause.timerMillis) =
      { d with scheduler := .asking, mailbox := [.runTick .scheduler] } := by
    rw [wake, h.scheduler]
    dsimp only
    rw [if_neg (Nat.lt_irrefl _), if_pos h.alive, h.mailbox]
    rfl
  rw [Dispatcher.step, h.free, h.mailbox]
  dsimp only
  rw [hwake, Option.map_some, hasks]
  refine ⟨_, _, rfl, ⟨⟨h.same, h.alive, h.free, h.ticks, ?_⟩, rfl, rfl⟩, ?_⟩
  · exact ⟨h.calm.spares, h.calm.dated⟩
  · exact Nat.max_eq_right (Nat.le_add_right _ _)

theorem asked_steps {w : World (Disruption.State Table)} (h : w.Calm relay) (disruptions : List Disruption) (n : Nat) :
    ∃ d w', steps (tableBackend.disrupted disruptions) (start relay true) w (2 * n) = some (d, w') ∧
      Asked relay n d w' := by
  induction n with
  | zero => exact ⟨_, w, rfl, ⟨rfl, rfl, rfl, rfl, h⟩, rfl, rfl⟩
  | succ n ih =>
    obtain ⟨d, w₀, hsteps, hasked⟩ := ih
    obtain ⟨d₁, w₁, hrun, hpaused⟩ := hasked.step disruptions
    obtain ⟨d₂, w₂, hwake, hagain, -⟩ := hpaused.step (tableBackend.disrupted disruptions)
    exact ⟨d₂, w₂, (steps_succ ((steps_succ hsteps).trans hrun)).trans hwake, hagain⟩

/-- No tick stops the scheduler, whichever calls of the store fail and whatever the broker does but crash on a dead
letter, if no threshold lies before all dates. A tick comes to an end with a report or a fault, and is counted. When
the scheduler has asked for a tick, the tick is run and counted next, with the dispatcher alive; the
scheduler pauses from the reply on, and then asks again. -/
theorem ticks_go_on (relay : Relay) (disruptions : List Disruption) (w : World (Disruption.State Table))
    (hspares : w.Spares relay.graveyard.topic) (hdated : (w.start.minus? relay.config.stuck).isSome) :
    (∀ stats, ∃ report stats' w', w.run (tableBackend.disrupted disruptions) none (relay.runTick stats) =
      (.finished (.ok report, stats'), w') ∧ stats'.ticks = stats.ticks + 1) ∧
    ∀ n, ∃ asked paused again : Dispatcher × World (Disruption.State Table),
      let steps := steps (tableBackend.disrupted disruptions) (start relay true) w
      steps (2 * n) = some asked ∧ Asked relay n asked.1 asked.2 ∧
      steps (2 * n + 1) = some paused ∧ Paused relay (n + 1) paused.1 paused.2 ∧
      steps (2 * n + 2) = some again ∧ Asked relay (n + 1) again.1 again.2 ∧
      again.2.elapsed = paused.2.elapsed + relay.config.pause.timerMillis := by
  have hcalm : w.Calm relay := ⟨hspares, hdated⟩
  refine ⟨fun stats => ?_, fun n => ?_⟩
  · obtain ⟨report, stats', w', hrun, hticks, -⟩ := hcalm.runTick disruptions stats
    exact ⟨report, stats', w', hrun, hticks⟩
  · obtain ⟨d, w₀, hsteps, hasked⟩ := asked_steps hcalm disruptions n
    obtain ⟨d₁, w₁, hrun, hpaused⟩ := hasked.step disruptions
    obtain ⟨d₂, w₂, hwake, hagain, htime⟩ := hpaused.step (tableBackend.disrupted disruptions)
    have hnext := (steps_succ hsteps).trans hrun
    exact ⟨(d, w₀), (d₁, w₁), (d₂, w₂), hsteps, hasked, hnext, hpaused, (steps_succ hnext).trans hwake, hagain, htime⟩

/-- A relay that gives up a row at once, and then waits for a second. -/
def hasty : Relay where
  publisher := { chunk := 4, limit := .ofSeconds 1 }
  graveyard := { limit := .ofSeconds 1 }
  policy := { maxAttempts := some 1 }

/-- A table with an event whose payload is not JSON, so that it comes to a dead letter, and a broker with rules. -/
def stubborn (rules : List Rule) : World (Disruption.State Table) where
  start := .epoch
  rules := rules
  contents := { inner := (Table.save {} {
    id := 1, aggregateType := "Order", aggregateId := "order-1", kind := "OrderPlaced", payload := [120]
    createdAt := .epoch }).2 }

/-- The first claim fails, and then the dead letter is refused; the third tick is counted all the same. -/
theorem hasty_goes_on :
    ∃ paused, steps (tableBackend.disrupted [{ method := .claim, nth := some 1, fault := .database .poolTimedOut }])
      (start hasty true) (stubborn [{ ending := .refuse (.unavailable "down") }]) 5 = some paused ∧
      paused.1.alive ∧ paused.1.stats.ticks = 3 := by
  have hspares : (stubborn [{ ending := .refuse (.unavailable "down") }]).Spares hasty.graveyard.topic :=
    World.spares_of_rules (List.forall_mem_singleton.2 fun _ _ => nofun)
  obtain ⟨-, hticks⟩ := ticks_go_on hasty [{ method := .claim, nth := some 1, fault := .database .poolTimedOut }] _
    hspares (by decide)
  obtain ⟨_, paused, _, -, -, hsteps, hpaused, -⟩ := hticks 2
  exact ⟨paused, hsteps, hpaused.alive, hpaused.ticks⟩

/-- A broker that crashes on a dead letter breaks the tick off, and with it the dispatcher. -/
theorem hasty_stops :
    ¬∀ (relay : Relay) (disruptions : List Disruption) (w : World (Disruption.State Table)) (stats : Stats),
      (w.start.minus? relay.config.stuck).isSome →
      ∃ report stats' w', w.run (tableBackend.disrupted disruptions) none (relay.runTick stats) =
        (.finished (.ok report, stats'), w') ∧ stats'.ticks = stats.ticks + 1 := by
  intro h
  obtain ⟨report, stats, w', hrun, -⟩ := h hasty []
    (stubborn [{ topic := some hasty.graveyard.topic, ending := .crash "boom" }]) {} (by decide)
  have hbroken : isAnswer ((stubborn [{ topic := some hasty.graveyard.topic, ending := .crash "boom" }]).run
      (tableBackend.disrupted []) none (hasty.runTick {})).1 = false := by decide +kernel
  rw [hrun] at hbroken
  cases hbroken

end Dispatcher

end Simulation

end Outbox
