import Geotrack.Geodesy.Sphere

/-!
# Legs

A leg is the way from one fix to the next, with its length, speed and heading.
-/

namespace Geotrack

open Scalar

/-- The way from one fix to a later one. -/
structure Leg (K : Type) where
  start : Fix K
  finish : Fix K
  deriving Repr, Inhabited, DecidableEq

namespace Leg

variable {K : Type}

/-- The legs between neighbouring fixes of a list. -/
def between : List (Fix K) → List (Leg K)
  | a :: b :: rest => ⟨a, b⟩ :: between (b :: rest)
  | _ => []

theorem between_length (fixes : List (Fix K)) : (between fixes).length = fixes.length - 1 := by
  fun_induction between fixes with
  | case1 a b rest ih => simp [ih]
  | case2 fixes h =>
    match fixes, h with
    | [], _ => rfl
    | [_], _ => rfl
    | a :: b :: rest, h => exact absurd rfl (h a b rest)

/-- The time between the fixes in nanoseconds. -/
def elapsed (leg : Leg K) : Int := leg.finish.time.since leg.start.time

def elapsedSeconds (leg : Leg K) : Int := Instant.wholeSeconds leg.elapsed

variable [Scalar K]

def lengthMeters (leg : Leg K) : K := distanceMeters leg.start.point leg.finish.point

/-- The mean speed in kilometers per hour; zero for a leg that takes less than a millisecond. -/
def speed (leg : Leg K) : K :=
  let millis := Instant.wholeMillis leg.elapsed
  if 0 < millis then leg.lengthMeters / ofInt 1000 / (ofInt millis / ofInt 3600000) else zero

/-- The direction at the start, in degrees clockwise from north. -/
def heading (leg : Leg K) : K := bearing leg.start.point leg.finish.point

end Leg

end Geotrack
