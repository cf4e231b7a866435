import Geotrack.Track.Leg

/-!
# Track filters

A filter drops fixes that cannot be right, or that are of no use. Fixes are taken by time. Each is
judged by itself and by the leg that leads to it from the last fix that was kept.
-/

namespace Geotrack

open Scalar

/-- Limits on the legs of a track. -/
structure TrackFilter (K : Type) where
  /-- A fix that is reached faster is dropped. -/
  maxSpeed : Option K := none
  /-- A fix that is nearer than this many meters to the one before is dropped. -/
  minLength : Option K := none
  /-- Whether fixes at impossible positions are dropped. -/
  dropJunk : Bool := true
  deriving Repr, DecidableEq

instance : Inhabited (TrackFilter K) := ⟨{}⟩

/-- Fixes in order of time, those of one time as they were. -/
def sortByTime {K : Type} (fixes : List (Fix K)) : List (Fix K) :=
  fixes.mergeSort fun (a b : Fix K) => a.time ≤ b.time

theorem sortByTime_ordered {K : Type} (fixes : List (Fix K)) :
    (sortByTime fixes).Pairwise fun a b => a.time ≤ b.time := by
  have h := @List.pairwise_mergeSort (Fix K) (fun a b => decide (a.time ≤ b.time))
    (fun _ _ _ hab hbc => by simpa using Instant.le_trans (by simpa using hab) (by simpa using hbc))
    (fun a b => by simpa using Instant.le_total a.time b.time) fixes
  simpa [sortByTime] using h

namespace TrackFilter

variable {K : Type} [Scalar K]

/-- Whether a leg is within the limits. A limit that cannot be compared does not count. -/
def admitsLeg (filter : TrackFilter K) (leg : Leg K) : Bool :=
  !(filter.maxSpeed.any fun limit => lt limit leg.speed) &&
  !(filter.minLength.any fun limit => lt leg.lengthMeters limit)

/-- Whether a fix is kept after the last one that was kept, if there is one. -/
def admits (filter : TrackFilter K) (last : Option (Fix K)) (fix : Fix K) : Bool :=
  !(filter.dropJunk && fix.point.isJunk) && last.all fun l => filter.admitsLeg ⟨l, fix⟩

/-- The fixes that are kept of a list, when `last` was kept before it. -/
def keep (filter : TrackFilter K) (last : Option (Fix K)) : List (Fix K) → List (Fix K)
  | [] => []
  | fix :: rest =>
    if filter.admits last fix then fix :: keep filter (some fix) rest else keep filter last rest

/-- The fixes that are kept, in order of time. -/
def apply (filter : TrackFilter K) (fixes : List (Fix K)) : List (Fix K) :=
  filter.keep none (sortByTime fixes)

end TrackFilter

end Geotrack
