import Geotrack.Ident.Uuid
import Geotrack.Track.Filter

/-!
# Trajectories

A trajectory is the path of one subject: its fixes in order of time and the legs between them. Its
statistics are the mean speed of its legs and the nearest-rank percentiles of their speeds.
-/

namespace Geotrack

open Scalar

/-- The path of one subject. -/
structure Trajectory (K : Type) where
  subject : Uuid
  fixes : List (Fix K)
  ordered : fixes.Pairwise fun a b => a.time ≤ b.time

/-- Why a statistic of a trajectory has no value. -/
inductive StatisticError (K : Type) where
  | noMeanSpeed
  | noSpeedPercentile (percentile : K)
  | invalidPercentile (percentile : K)
  deriving Repr, DecidableEq

def StatisticError.message : StatisticError Float → String
  | .noMeanSpeed => "Insufficient data: mean speed of a trajectory with no segments"
  | .noSpeedPercentile p =>
    "Insufficient data: no segments for speed percentile " ++ Decimal.shortest p
  | .invalidPercentile p => "Invalid percentile " ++ Decimal.shortest p ++ ": expected 0-100"

namespace Trajectory

variable {K : Type}

/-- The trajectory through fixes in any order. -/
def build (subject : Uuid) (fixes : List (Fix K)) : Trajectory K :=
  ⟨subject, sortByTime fixes, sortByTime_ordered fixes⟩

def legs (t : Trajectory K) : List (Leg K) := Leg.between t.fixes

/-- Whole seconds from the first fix to the last. -/
def timespanSeconds (t : Trajectory K) : Int :=
  match t.fixes.head?, t.fixes.getLast? with
  | some first, some last => Instant.wholeSeconds (last.time.since first.time)
  | _, _ => 0

/-- The trajectory of the last `n` fixes. -/
def tail (t : Trajectory K) (n : Nat) : Trajectory K :=
  ⟨t.subject, t.fixes.drop (t.fixes.length - n), t.ordered.drop⟩

variable [Scalar K]

/-- The trajectory through the fixes that a filter keeps. -/
def buildFiltered (subject : Uuid) (fixes : List (Fix K)) (filter : TrackFilter K) : Trajectory K :=
  build subject (filter.apply fixes)

def speeds (t : Trajectory K) : List K := t.legs.map Leg.speed

/-- The mean of the legs' speeds. -/
def meanSpeed (t : Trajectory K) : Except (StatisticError K) K :=
  match t.speeds with
  | [] => .error .noMeanSpeed
  | speeds => .ok (speeds.foldl (· + ·) zero / ofInt speeds.length)

/-- The rank of a percentile among `n` values: the share of `n` rounded up, from 1 to `n`. -/
def rank (percentile : K) (n : Nat) : Nat :=
  Nat.max 1 (Nat.min n (ceilNat (percentile / ofInt 100 * ofInt n)))

/-- The speed at the nearest rank of a percentile. -/
def speedPercentile (t : Trajectory K) (percentile : K) : Except (StatisticError K) K :=
  if !(le zero percentile && le percentile (ofInt 100)) then .error (.invalidPercentile percentile)
  else
    let sorted := t.speeds.mergeSort sortKeyLe
    match sorted[rank percentile sorted.length - 1]? with
    | some speed => .ok speed
    | none => .error (.noSpeedPercentile percentile)

end Trajectory

end Geotrack
