import Outbox.Json.Writer
import Outbox.Metrics.Exposition
/-! The pages under which the numbers and the health of the process can be asked for. -/

namespace Outbox.Metrics

structure Page where
  status : Nat
  contentType : Option String
  body : String
deriving DecidableEq, Repr, Inhabited

def metricsPage (m : Metrics) : Page := ⟨200, some "text/plain; version=0.0.4", m.exposition⟩

def healthPage : Page :=
  ⟨200, some "application/json",
    (Json.Value.object [("service", .string "outbox-relay"), ("status", .string "healthy")]).write⟩

end Outbox.Metrics
