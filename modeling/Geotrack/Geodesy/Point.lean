import Geotrack.Number.Decimal
import Geotrack.Number.Scalar
import Geotrack.Time.Instant

/-!
# Points and fixes

A point is a position on the Earth in decimal degrees, a fix a position at an instant. Points are
equal when their coordinates are equal as numbers, so that `-0` equals `0`.
-/

namespace Geotrack

structure Point (K : Type) where
  longitude : K
  latitude : K
  deriving Repr, Inhabited, DecidableEq

/-- A position at an instant. -/
structure Fix (K : Type) where
  point : Point K
  time : Instant
  deriving Repr, Inhabited, DecidableEq

namespace Point

variable {K : Type} [Scalar K]

/-- Whether two points have equal coordinates. -/
def same (a b : Point K) : Bool :=
  Scalar.eq a.longitude b.longitude && Scalar.eq a.latitude b.latitude

/-- Whether both coordinates are finite and within the bounds of longitude and latitude. -/
def isValid (p : Point K) : Bool :=
  Scalar.finite p.longitude && Scalar.finite p.latitude &&
  Scalar.le (Scalar.ofInt (-180)) p.longitude && Scalar.le p.longitude (Scalar.ofInt 180) &&
  Scalar.le (Scalar.ofInt (-90)) p.latitude && Scalar.le p.latitude (Scalar.ofInt 90)

/-- Whether the point is the origin, which a collar without a lock reports. -/
def isNullIsland (p : Point K) : Bool :=
  Scalar.eq p.longitude Scalar.zero && Scalar.eq p.latitude Scalar.zero

/-- Whether the point cannot be an observed position. -/
def isJunk (p : Point K) : Bool := !p.isValid || p.isNullIsland

/-- The points of a list that equal none before them. -/
def distinct (points : List (Point K)) : List (Point K) :=
  points.foldl (fun seen p => if seen.any (·.same p) then seen else seen ++ [p]) []

/-- The position in text, six decimals each. -/
def toText (p : Point Float) : String :=
  "(" ++ Decimal.fixed 6 p.longitude ++ ", " ++ Decimal.fixed 6 p.latitude ++ ")"

end Point

end Geotrack
