import Geotrack.Geodesy.Sphere

/-!
# Positions and times along a segment

A place between two fixes is given by the fraction of the way. Coordinates move linearly in degrees
and time linearly in whole microseconds.
-/

namespace Geotrack

open Scalar

variable {K : Type} [Scalar K]

/-- The share of a length that lies between `start` and `point`; zero where there is no length. -/
def fractionAlong (start point : Point K) (length : K) : K :=
  if le length zero || !finite length then zero else distanceMeters start point / length

/-- A fraction kept between 0 and 1; zero where it is not finite. -/
def unitFraction (fraction : K) : K :=
  if finite fraction then clamp zero one fraction else zero

/-- The microseconds from `start` to `finish`. A span too long for 64 bits of them is counted in
milliseconds and kept within the 64 bits. -/
def elapsedMicros (start finish : Instant) : Int :=
  let span := finish.since start
  let micros := Instant.wholeMicros span
  if clampInt64 micros = micros then micros else clampInt64 (Instant.wholeMillis span * 1000)

/-- The instant a fraction of the way from `start` to `finish`, to the microsecond. -/
def interpolateTime (start finish : Instant) (fraction : K) : Instant :=
  let offset := roundInt (ofInt (elapsedMicros start finish) * unitFraction fraction)
  start.shift (offset * 1000)

/-- The fix a fraction of the way from `start` to `finish`. -/
def interpolateFix (start finish : Fix K) (fraction : K) : Fix K :=
  let f := unitFraction fraction
  let a := start.point
  let b := finish.point
  { point :=
      { longitude := fusedMulAdd (b.longitude - a.longitude) f a.longitude
        latitude := fusedMulAdd (b.latitude - a.latitude) f a.latitude }
    time := interpolateTime start.time finish.time f }

end Geotrack
