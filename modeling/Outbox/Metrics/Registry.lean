import Outbox.Event.Status
/-! The numbers that a relay keeps about itself: counters that only grow, gauges of the rows in each state,
and histograms of durations. -/

namespace Outbox.Metrics

/-! ### Histograms -/

/-- Durations in seconds, counted by the first bound that is not below them. -/
structure Histogram where
  /-- The bounds in rising order, each with the number of durations counted there. -/
  buckets : List (Float × Nat)
  count : Nat := 0
  sum : Float := 0

namespace Histogram

def empty (bounds : List Float) : Histogram := { buckets := bounds.map fun b => (b, 0) }

def countIn (seconds : Float) : List (Float × Nat) → List (Float × Nat)
  | [] => []
  | (bound, n) :: rest =>
    if seconds ≤ bound then (bound, n + 1) :: rest else (bound, n) :: countIn seconds rest

/-- A duration that is beyond all bounds, or not a number, counts in the total only. -/
def observe (h : Histogram) (seconds : Float) : Histogram :=
  { buckets := countIn seconds h.buckets, count := h.count + 1, sum := h.sum + seconds }

/-- For each bound the durations up to it, given those below the first. -/
def cumulative (below : Nat) : List (Float × Nat) → List (Float × Nat)
  | [] => []
  | (bound, n) :: rest => (bound, below + n) :: cumulative (below + n) rest

end Histogram

/-! ### Labelled children -/

/-- Values under the label that tells them apart, in the order of the labels. -/
abbrev Labelled (α : Type) := List (String × α)

/-- Changes the value under a label. A label that is new starts from `fresh`. -/
def alter {α : Type} (label : String) (fresh : α) (f : α → α) : Labelled α → Labelled α
  | [] => [(label, f fresh)]
  | (k, v) :: rest =>
    if k == label then (k, f v) :: rest
    else if label < k then (label, f fresh) :: (k, v) :: rest
    else (k, v) :: alter label fresh f rest

def increment (label : String) (counts : Labelled Nat) : Labelled Nat := alter label 0 (· + 1) counts

end Metrics

/-! ### The registry -/

/-- The state of all numbers. -/
structure Metrics where
  ticks : Metrics.Labelled Nat := []
  tickErrors : Nat := 0
  tickDuration : Metrics.Histogram := .empty [0.005, 0.01, 0.05, 0.1, 0.5, 1.0, 5.0, 30.0]
  claimed : Nat := 0
  published : Nat := 0
  failed : Metrics.Labelled Nat := []
  deadLettered : Nat := 0
  publishDuration : Metrics.Histogram := .empty [0.001, 0.005, 0.01, 0.05, 0.1, 0.5, 1.0, 5.0]
  rows : Metrics.Labelled Int := []
  idsGenerated : Nat := 0
  clockRegressions : Nat := 0

instance : Inhabited Metrics := ⟨{}⟩

/-- Something that is counted. -/
inductive Measurement
  | tick (outcome : String) (seconds : Float)
  | tickError
  | outcomes (claimed published deadLettered : Nat)
  | publishFailure (retryable : Bool)
  | publish (seconds : Float)
  /-- The rows in each state; a state that is not listed has none. -/
  | rows (counts : List (Status × Int))
  | idGenerated
  | clockRegression

namespace Metrics

def retryableLabel (retryable : Bool) : String := if retryable then "true" else "false"

def record (m : Metrics) : Measurement → Metrics
  | .tick outcome seconds =>
    { m with ticks := increment outcome m.ticks, tickDuration := m.tickDuration.observe seconds }
  | .tickError => { m with tickErrors := m.tickErrors + 1, ticks := increment "error" m.ticks }
  | .outcomes claimed published deadLettered =>
    { m with
      claimed := m.claimed + claimed
      published := m.published + published
      deadLettered := m.deadLettered + deadLettered }
  | .publishFailure retryable => { m with failed := increment (retryableLabel retryable) m.failed }
  | .publish seconds => { m with publishDuration := m.publishDuration.observe seconds }
  | .rows counts =>
    { m with
      rows := Status.all.foldl (fun rows s => alter s.name 0 (fun _ => (counts.lookup s).getD 0) rows) m.rows }
  | .idGenerated => { m with idsGenerated := m.idsGenerated + 1 }
  | .clockRegression => { m with clockRegressions := m.clockRegressions + 1 }

end Metrics

end Outbox
