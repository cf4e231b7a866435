import Geotrack.Geodesy.Point

/-!
# Distance and bearing on the sphere

Distances are great-circle distances by the haversine formula on a sphere of radius 6371 km.
-/

namespace Geotrack

open Scalar

variable {K : Type} [Scalar K]

def earthRadiusKm : K := ofInt 6371

/-- The square of a number. -/
def square (x : K) : K := x * x

/-- The square of half the chord between two points on the unit sphere. -/
def halfChordSquare (a b : Point K) : K :=
  let lat1 := radians a.latitude
  let lat2 := radians b.latitude
  let dlon := radians b.longitude - radians a.longitude
  let dlat := lat2 - lat1
  square (sin (dlat / ofInt 2)) + cos lat1 * cos lat2 * square (sin (dlon / ofInt 2))

/-- The distance in kilometers. Rounding can carry the half chord past the unit, hence the clamp. -/
def distanceKm (a b : Point K) : K :=
  ofInt 2 * asin (sqrt (clamp zero one (halfChordSquare a b))) * earthRadiusKm

/-- The distance in meters. -/
def distanceMeters (a b : Point K) : K := distanceKm a b * ofInt 1000

/-- An angle from -180 to 180 degrees as one from 0 up to, but not including, 360. -/
def compassDegrees (angle : K) : K :=
  let turned := angle + ofInt 360
  if le (ofInt 360) turned then turned - ofInt 360 else turned

/-- The direction in which the great circle leaves `a` for `b`, in degrees clockwise from north;
zero for equal points. -/
def bearing (a b : Point K) : K :=
  if a.same b then zero
  else
    let lat1 := radians a.latitude
    let lat2 := radians b.latitude
    let dlon := radians (b.longitude - a.longitude)
    let y := sin dlon * cos lat2
    let x := fusedMulAdd (cos lat1) (sin lat2) (-(sin lat1 * cos lat2 * cos dlon))
    compassDegrees (degrees (atan2 y x))

end Geotrack
