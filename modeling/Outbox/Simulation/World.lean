import Outbox.Relay.Tick
import Outbox.Simulation.Script
import Outbox.Store.Disruption
import Outbox.Store.Table
/-! A world in which relays run: a store, a scripted broker, counters, and a time that passes only while
something is waited for. -/

namespace Outbox.Simulation

open Relay (Parcel Delivery Program Action)

/-- A store in the world: how it answers, and how somebody else marks rows in it as published. -/
structure Backend (σ : Type) where
  store : Store σ
  overtake : List Int → Instant → σ → σ

/-- A message that the broker took. -/
structure Sent where
  /-- Milliseconds since the start. -/
  time : Nat
  parcel : Parcel
deriving DecidableEq, Repr, Inhabited

structure World (σ : Type) where
  /-- Milliseconds since the start. -/
  elapsed : Nat := 0
  /-- What the wall clock showed at the start. -/
  start : Instant
  /-- Whether the wall clock moves. -/
  moving : Bool := true
  /-- Microseconds by which somebody sets the wall clock whenever an event is saved, one after the other. -/
  clockShifts : List Int := []
  contents : σ
  rules : List Rule := []
  /-- The messages that the broker took, latest first. -/
  sent : List Sent := []
  metrics : Metrics := {}

namespace World

variable {σ : Type}

/-- What the wall clock shows. -/
def now (w : World σ) : Instant := if w.moving then w.start.after (.ofMillis w.elapsed) else w.start

/-- The world at a later time. -/
def waitUntil (w : World σ) (time : Nat) : World σ := { w with elapsed := max w.elapsed time }

def record (w : World σ) (m : Measurement) : World σ := { w with metrics := w.metrics.record m }

/-- The world before a call of the store, with the clock set if that is due. -/
def setClock (w : World σ) : Request → World σ
  | .save _ =>
    match w.clockShifts with
    | [] => w
    | shift :: rest => { w with start := w.start.shifted shift, clockShifts := rest }
  | _ => w

/-- A call of the store. -/
def ask (b : Backend σ) (r : Request) (w : World σ) : Except Interrupt r.Answer × World σ :=
  let w := w.setClock r
  let (answer, contents) := b.store.answer r w.contents
  (answer, { w with contents := contents })

end World

/-! ### Deliveries -/

/-- A parcel on its way. -/
structure Flight where
  parcel : Parcel
  rule : Rule
  start : Nat
  /-- When the delivery ends or is cut off. -/
  finish : Nat
  /-- Whether it ends by itself. -/
  inTime : Bool
  measured : Bool
deriving DecidableEq, Repr, Inhabited

namespace Flight

/-- A delivery from `start` on under a limit; one that ends at the limit ends by itself. -/
def depart (parcel : Parcel) (rule : Rule) (start : Nat) (limit : Span) (measured : Bool) : Flight :=
  { parcel := parcel, rule := rule, start := start, finish := start + min rule.delay limit.timerMillis
    inTime := decide (rule.delay ≤ limit.timerMillis), measured := measured }

def delivery (f : Flight) : Delivery := if f.inTime then f.rule.ending.delivery else .timedOut

theorem delivery_depart (parcel : Parcel) (rule : Rule) (start : Nat) (limit : Span) (measured : Bool) :
    (depart parcel rule start limit measured).delivery =
      if rule.delay ≤ limit.timerMillis then rule.ending.delivery else .timedOut := by
  simp only [depart, delivery, decide_eq_true_eq]

/-- A delivery that succeeds is one that the broker accepts in time. -/
theorem depart_delivered {parcel : Parcel} {rule : Rule} {start : Nat} {limit : Span} {measured : Bool}
    (h : (depart parcel rule start limit measured).delivery = .delivered) :
    rule.ending = .accept ∧ rule.delay ≤ limit.timerMillis := by
  rw [delivery_depart] at h
  split at h
  · next hdelay =>
    cases hending : rule.ending with
    | accept => exact ⟨rfl, hdelay⟩
    | refuse | crash => rw [hending] at h; cases h
  · cases h

def isCrash (f : Flight) : Bool :=
  match f.delivery with
  | .crashed _ => true
  | _ => false

def seconds (f : Flight) : Float := (f.finish - f.start).toFloat / 1000

end Flight

namespace World

variable {σ : Type}

/-- Starts parcels side by side, each by its own rule. -/
def depart (measured : Bool) (limit : Span) (w : World σ) : List Parcel → List Flight × World σ
  | [] => ([], w)
  | p :: rest =>
    let (rule, rules) := chooseRule p w.rules
    let flight := Flight.depart p rule w.elapsed limit measured
    let (flights, w) := depart measured limit { w with rules := rules } rest
    (flight :: flights, w)

/-- What a delivery that ends by itself does. -/
def arrive (b : Backend σ) (f : Flight) (w : World σ) : World σ :=
  let w := { w with contents := b.overtake f.rule.overtaken w.now w.contents }
  match f.rule.ending with
  | .accept => { w with sent := ⟨w.elapsed, f.parcel⟩ :: w.sent }
  | _ => w

/-- The end of a delivery. One that is cut off has done nothing. -/
def land (b : Backend σ) (f : Flight) (w : World σ) : World σ :=
  let w := w.waitUntil f.finish
  let w := if f.inTime then w.arrive b f else w
  if f.measured && !f.isCrash then w.record (.publish f.seconds) else w

def landAll (b : Backend σ) (flights : List Flight) (w : World σ) : World σ :=
  flights.foldl (fun w f => w.land b f) w

/-- Flights in the order in which they end. -/
def inOrder (flights : List Flight) : List Flight := flights.mergeSort fun f g => decide (f.finish ≤ g.finish)

end World

/-! ### Running programs -/

/-- How far a program got. -/
inductive Progress (α : Type) where
  | finished (result : α)
  /-- Flights are still to land, in this order, before it goes on. -/
  | waiting (flights : List Flight) (rest : Program α)

namespace World

variable {σ α : Type}

/-- Whether something that happens at a time happens within a limit. -/
def isDue (limit : Option Nat) (time : Nat) : Bool := limit.all fun l => decide (time ≤ l)

/-- Runs a program until it has finished or waits for something after the limit. -/
def run (b : Backend σ) (limit : Option Nat) : Program α → World σ → Progress α × World σ
  | .done a, w => (.finished a, w)
  | .act (.ask r) next, w =>
    let (answer, w) := w.ask b r
    run b limit (next answer) w
  | .act .now next, w => run b limit (next w.now) w
  | .act .elapsed next, w => run b limit (next w.elapsed) w
  | .act (.note m) next, w => run b limit (next ()) (w.record m)
  | .act (.deliver measured limitEach parcels) next, w =>
    let (flights, w) := w.depart measured limitEach parcels
    let (due, later) := (inOrder flights).span fun f => isDue limit f.finish
    let w := w.landAll b due
    let rest := next (flights.map Flight.delivery)
    if later.isEmpty then run b limit rest w else (.waiting later rest, w)

/-- Goes on with a program that waited. -/
def resume (b : Backend σ) (limit : Option Nat) (flights : List Flight) (rest : Program α) (w : World σ) :
    Progress α × World σ :=
  let (due, later) := flights.span fun f => isDue limit f.finish
  let w := w.landAll b due
  if later.isEmpty then run b limit rest w else (.waiting later rest, w)

/-- Runs a program to its end. -/
def complete (b : Backend σ) : Program α → World σ → α × World σ
  | .done a, w => (a, w)
  | .act (.ask r) next, w =>
    let (answer, w) := w.ask b r
    complete b (next answer) w
  | .act .now next, w => complete b (next w.now) w
  | .act .elapsed next, w => complete b (next w.elapsed) w
  | .act (.note m) next, w => complete b (next ()) (w.record m)
  | .act (.deliver measured limit parcels) next, w =>
    let (flights, w) := w.depart measured limit parcels
    complete b (next (flights.map Flight.delivery)) (w.landAll b (inOrder flights))

/-- The messages taken since the last look, and the world with none. -/
def takeSent (w : World σ) : List Sent × World σ := (w.sent.reverse, { w with sent := [] })

end World

/-! ### Tables -/

/-- A table, in which rows are marked as published directly. -/
def tableBackend : Backend Table := ⟨Table.store, fun ids now t => (t.markPublished now ids).2⟩

/-- The same with disruptions, which do not hold for marks made directly. -/
def Backend.disrupted {σ : Type} (b : Backend σ) (disruptions : List Disruption) :
    Backend (Disruption.State σ) :=
  ⟨Disruption.store b.store disruptions, fun ids now s => { s with inner := b.overtake ids now s.inner }⟩

end Outbox.Simulation
