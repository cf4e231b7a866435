import Geotrack.Analysis.Stores
import Geotrack.Plan.Basic

/-!
# The events of a plan
-/

namespace Geotrack.Plan

/-- What the batch of a plan has in common: no sampler, and the filters of the plan. -/
def batchSettings (plan : Plan) (catalog : Catalog) : Batch.Settings := ⟨{ catalog }, plan.filterOf⟩

/-- The events that jobs publish when they run at a time over some observations, with nothing on
record before. -/
def events (plan : Plan) (catalog : Catalog) (jobs : List Job) (now : Instant)
    (observations : List Observation) : List Event :=
  let stores : Stores := { now, observations }
  let batch := Batch.run (plan.batchSettings catalog) (fun _ => false) jobs
  (batch.exec (Stores.responder noValues) stores).2.events

end Geotrack.Plan
