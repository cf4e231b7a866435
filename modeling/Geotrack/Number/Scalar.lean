import Geotrack.Number.Scaled

/-!
# Numbers for coordinates and lengths

The geometry of this library is written over any type of numbers with the operations of `Scalar`.
`Float` is the type that programs run on; a field such as the real numbers gives the same
definitions with exact arithmetic, so that a law can be stated of either.
-/

namespace Geotrack

/-- Which way three points turn. -/
inductive Turn where
  | left
  | right
  | straight
  deriving DecidableEq, Repr, Inhabited

/-- The turn for the sign of a determinant. -/
def Turn.ofSign : Ordering → Turn
  | .gt => .left
  | .lt => .right
  | .eq => .straight

/-- The operations that geometry asks of its numbers. Comparisons answer as the numbers do, so a
NaN compares false with everything. -/
class Scalar (K : Type) extends Add K, Sub K, Mul K, Div K, Neg K where
  /-- A whole number. -/
  ofInt : Int → K
  /-- The decimal fraction `digits * 10 ^ -places`. -/
  decimal : (digits places : Nat) → K
  pi : K
  /-- The length of one degree in radians. -/
  degree : K
  /-- The length of one radian in degrees. -/
  radian : K
  eq : K → K → Bool
  lt : K → K → Bool
  le : K → K → Bool
  /-- A total order for sorting. -/
  sortKeyLe : K → K → Bool
  finite : K → Bool
  sqrt : K → K
  sin : K → K
  cos : K → K
  asin : K → K
  atan2 : K → K → K
  /-- `a * b + c` rounded once. -/
  fusedMulAdd : K → K → K → K
  /-- The length of a vector. -/
  hypotenuse : K → K → K
  /-- The nearest whole number, halves away from zero. -/
  roundInt : K → Int
  /-- The number cut off toward zero. -/
  truncateInt : K → Int
  /-- The least natural number not below the number. -/
  ceilNat : K → Nat
  /-- The turn of the path from `(px, py)` over `(qx, qy)` to `(rx, ry)`. -/
  turn : (px py qx qy rx ry : K) → Turn

namespace Scalar

variable {K : Type} [Scalar K]

def zero : K := ofInt 0
def one : K := ofInt 1

def abs (x : K) : K := if lt x zero then -x else x

/-- The smaller of two numbers; a NaN gives way to a number. -/
def min (x y : K) : K := if !eq x x then y else if lt y x then y else x

/-- The larger of two numbers; a NaN gives way to a number. -/
def max (x y : K) : K := if !eq x x then y else if lt x y then y else x

/-- A number kept between two bounds. -/
def clamp (low high x : K) : K := if lt x low then low else if lt high x then high else x

/-- Whether a number lies between two others, whichever of them is larger. -/
def between (x a b : K) : Bool :=
  if lt a b then le a x && le x b else le b x && le x a

def radians (x : K) : K := x * degree

def degrees (x : K) : K := x * radian

end Scalar

namespace Binary64

/-- The sign of `(px - rx) * (qy - ry) - (py - ry) * (qx - rx)`, computed exactly. -/
def exactTurn (px py qx qy rx ry : Scaled) : Turn :=
  .ofSign (((px.sub rx).mul (qy.sub ry)).sub ((py.sub ry).mul (qx.sub rx))).sign

/-- The sign of a rounded determinant. -/
def signTurn (det : Float) : Turn :=
  if det < 0 then .right else if 0 < det then .left else .straight

/-- The relative error that a rounded determinant stays within: `(3 + 16 u) u` for `u = 2 ^ -53`. -/
def turnErrorBound : Float := .ofBits 0x3cb8000000000004

/-- The turn of a path of three points. The rounded determinant decides when it is larger than its
error can be, the exact one otherwise. Where a product is not finite no error is known, and there is
no turn. -/
def turn (px py qx qy rx ry : Float) : Turn :=
  let left := (px - rx) * (qy - ry)
  let right := (py - ry) * (qx - rx)
  let det := left - right
  let bound := turnErrorBound * (left + right).abs
  if bound ≤ det || bound ≤ -det then signTurn det
  else if !(finite left && finite right) then .straight
  else
    match Scaled.ofFloat? px, Scaled.ofFloat? py, Scaled.ofFloat? qx, Scaled.ofFloat? qy,
        Scaled.ofFloat? rx, Scaled.ofFloat? ry with
    | some a, some b, some c, some d, some e, some f => exactTurn a b c d e f
    | _, _, _, _, _, _ => .straight

end Binary64

instance : Scalar Float where
  ofInt n := Float.ofInt n
  decimal digits places := Float.ofScientific digits true places
  pi := .ofBits 0x400921fb54442d18
  degree := .ofBits 0x3f91df46a2529d39
  radian := .ofBits 0x404ca5dc1a63c1f8
  eq x y := x == y
  lt x y := x < y
  le x y := x ≤ y
  sortKeyLe x y := Binary64.totalKey x ≤ Binary64.totalKey y
  finite := Binary64.finite
  sqrt := Float.sqrt
  sin := Float.sin
  cos := Float.cos
  asin := Float.asin
  atan2 := Float.atan2
  fusedMulAdd := Binary64.fusedMulAdd
  hypotenuse := Binary64.hypotenuse
  roundInt := Binary64.roundInt64
  truncateInt := Binary64.truncateInt64
  ceilNat := Binary64.ceilNat
  turn := Binary64.turn

end Geotrack
