import Outbox.Decimal.Layout
import Outbox.Metrics.Registry
/-! The numbers as families of samples, and the text in which a scraper gets them. -/

namespace Outbox.Metrics

/-! ### Families -/

/-- What a sample shows. -/
inductive Reading
  /-- A counter holds 64 bits and starts over after the largest. -/
  | counter (n : Nat)
  | gauge (n : Int)
  | histogram (h : Histogram)

/-- The samples of one name, under the label that tells them apart if there is one. -/
structure Family where
  name : String
  help : String
  kind : String
  /-- The name of the label. -/
  label : String := ""
  samples : Labelled Reading

def counterFamily (name help : String) (n : Nat) : Family :=
  { name := name, help := help, kind := "counter", samples := [("", .counter n)] }

def labelledFamily (name help label : String) (counts : Labelled Nat) : Family :=
  { name := name, help := help, kind := "counter", label := label
    samples := counts.map fun (l, n) => (l, .counter n) }

def histogramFamily (name help : String) (h : Histogram) : Family :=
  { name := name, help := help, kind := "histogram", samples := [("", .histogram h)] }

/-- All families in the order of their names; one without samples is left out. -/
def families (m : Metrics) : List Family :=
  [counterFamily "idgen_clock_regressions_total" "Id generation refused because the clock moved backwards"
      m.clockRegressions,
    counterFamily "idgen_ids_generated_total" "Snowflake ids issued by this process" m.idsGenerated,
    { name := "outbox_rows", help := "Rows in the outbox table by status", kind := "gauge", label := "status"
      samples := m.rows.map fun (l, n) => (l, .gauge n) },
    counterFamily "relay_events_claimed_total" "Outbox events claimed by this relay" m.claimed,
    counterFamily "relay_events_dead_lettered_total" "Outbox events moved to the dead-letter topic"
      m.deadLettered,
    labelledFamily "relay_events_failed_total" "Outbox events that failed to publish" "retryable" m.failed,
    counterFamily "relay_events_published_total" "Outbox events acknowledged by the sink" m.published,
    histogramFamily "relay_publish_duration_seconds" "Per-event publish latency" m.publishDuration,
    histogramFamily "relay_tick_duration_seconds" "Wall time of one relay tick" m.tickDuration,
    counterFamily "relay_tick_errors_total" "Relay ticks aborted by an unexpected error" m.tickErrors,
    labelledFamily "relay_ticks_total" "Relay ticks by outcome" "outcome" m.ticks].filter
    fun f => !f.samples.isEmpty

/-- The value that a counter shows after so many increments. -/
def wrapped (n : Nat) : Nat := n % (1 <<< 64)

/-- The number that a sample comes down to; for durations it is how many there were. -/
def Reading.number : Reading → Int
  | counter n => wrapped n
  | gauge n => n
  | histogram h => h.count

/-- The numbers of all samples by name and label. -/
def numbersByName (m : Metrics) : List (String × Int) :=
  m.families.flatMap fun f => f.samples.map fun (label, reading) =>
    (if f.label.isEmpty then f.name else f.name ++ "\x7b" ++ f.label ++ "=" ++ label ++ "\x7d", reading.number)

/-! ### Text -/

/-- Numbers are written without an exponent, and whole ones without a point. -/
def numbers : Decimal.Layout := ⟨fun _ => true, false⟩

def writeFloat (x : Float) : String :=
  if x.isNaN then "NaN"
  else match Double.ofBits? x.toBits with
    | some d => String.ofList (numbers.writeDouble d)
    | none => if x > 0 then "inf" else "-inf"

/-- A count as the double nearest to it. -/
def writeCount (n : Int) : String := String.ofList (numbers.writeDouble (Double.ofInt n))

def escapeLabel (s : String) : String :=
  String.ofList (s.toList.flatMap fun c =>
    if c = '\\' then ['\\', '\\'] else if c = '"' then ['\\', '"'] else if c = '\n' then ['\\', 'n'] else [c])

/-- A name with one label. -/
def labelledName (name label value : String) : String :=
  if label.isEmpty then name else name ++ "\x7b" ++ label ++ "=\"" ++ escapeLabel value ++ "\"\x7d"

def line (name value : String) : String := name ++ " " ++ value ++ "\n"

def Histogram.exposition (h : Histogram) (name : String) : String :=
  let bucket (bound : String) (n : Nat) := line (labelledName (name ++ "_bucket") "le" bound) (writeCount n)
  String.join ((cumulative 0 h.buckets).map fun (bound, n) => bucket (writeFloat bound) n) ++
    bucket "+Inf" h.count ++ line (name ++ "_sum") (writeFloat h.sum) ++
    line (name ++ "_count") (writeCount h.count)

def Family.exposition (f : Family) : String :=
  "# HELP " ++ f.name ++ " " ++ f.help ++ "\n# TYPE " ++ f.name ++ " " ++ f.kind ++ "\n" ++
    String.join (f.samples.map fun (value, reading) =>
      match reading with
      | .counter n => line (labelledName f.name f.label value) (writeCount (wrapped n))
      | .gauge n => line (labelledName f.name f.label value) (writeCount n)
      | .histogram h => h.exposition f.name)

def exposition (m : Metrics) : String := String.join (m.families.map Family.exposition)

end Outbox.Metrics
