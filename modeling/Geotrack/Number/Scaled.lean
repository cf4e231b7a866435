import Geotrack.Number.Power

/-!
# Exact values of binary64 numbers

A finite `Float` is a whole number of units `2 ^ exponent`. `Scaled` is that value, with exact
addition and multiplication, so that a result which must be rounded once is rounded once: by
`Scaled.round`, to the nearest float, a tie going to the even mantissa. The operations that need
it are those of the namespace `Binary64`.
-/

namespace Geotrack

/-- The number `mantissa * 2 ^ exponent`. -/
structure Scaled where
  mantissa : Int
  exponent : Int
  deriving DecidableEq, Repr, Inhabited

namespace Scaled

/-- The value of a finite float; none for an infinity or a NaN. -/
def ofFloat? (x : Float) : Option Scaled :=
  match x.toModel.unpack with
  | .zero _ => some ⟨0, 0⟩
  | .finite sign mantissa exponent _ => some ⟨sign.apply mantissa, exponent⟩
  | .infinity _ => none
  | .notANumber => none

/-- The same number with mantissa counted in units `2 ^ e`, for an `e` not above its exponent. -/
def mantissaAt (x : Scaled) (e : Int) : Int :=
  x.mantissa * twoTo (x.exponent - e).toNat

def add (x y : Scaled) : Scaled :=
  let e := min x.exponent y.exponent
  ⟨x.mantissaAt e + y.mantissaAt e, e⟩

def neg (x : Scaled) : Scaled := ⟨-x.mantissa, x.exponent⟩

def sub (x y : Scaled) : Scaled := x.add y.neg

def mul (x y : Scaled) : Scaled := ⟨x.mantissa * y.mantissa, x.exponent + y.exponent⟩

/-- Where the number lies relative to zero. -/
def sign (x : Scaled) : Ordering := compare x.mantissa 0

/-- The nearest float, ties to even, overflow to an infinity. Zero becomes positive zero. -/
def round (x : Scaled) : Float :=
  .ofModel (Float.Model.pack
    (Float.Model.UnpackedFloat.normalize .binary64 x.mantissa x.exponent .positive))

/-- The nearest float to the square root of a number that is not negative. -/
def sqrt (x : Scaled) : Float :=
  if x.mantissa ≤ 0 then 0
  else
    let (m, e, accuracy) :=
      Float.Model.UnpackedFloat.sqrtCore .binary64 x.mantissa.toNat x.exponent
    .ofModel (Float.Model.pack
      (Float.Model.UnpackedFloat.roundWithAccuracy .binary64 .positive m e accuracy))

/-- The greatest whole number that is not above the value. -/
def floor (x : Scaled) : Int :=
  if 0 ≤ x.exponent then x.mantissa * twoTo x.exponent.toNat
  else x.mantissa.fdiv (twoTo (-x.exponent).toNat)

/-- The least whole number that is not below the value. -/
def ceil (x : Scaled) : Int := -(x.neg.floor)

/-- The nearest whole number, a half going away from zero. -/
def roundHalfAway (x : Scaled) : Int :=
  let half : Scaled := ⟨1, -1⟩
  if 0 ≤ x.mantissa then (x.add half).floor else (x.sub half).ceil

@[simp] theorem add_mantissa (x y : Scaled) :
    (x.add y).mantissa =
      x.mantissaAt (min x.exponent y.exponent) + y.mantissaAt (min x.exponent y.exponent) := rfl

@[simp] theorem mul_mantissa (x y : Scaled) : (x.mul y).mantissa = x.mantissa * y.mantissa := rfl

end Scaled

/-- The whole numbers that a 64-bit signed integer can hold. -/
def int64Range : Int × Int := (-(twoTo 63 : Int), (twoTo 63 : Int) - 1)

/-- The nearest whole number in the range of a 64-bit signed integer. -/
def clampInt64 (n : Int) : Int := max int64Range.1 (min n int64Range.2)

namespace Binary64

/-- Whether a float is neither infinite nor a NaN. -/
def finite (x : Float) : Bool := (Scaled.ofFloat? x).isSome

/-- `a * b + c` rounded once. -/
def fusedMulAdd (a b c : Float) : Float :=
  match Scaled.ofFloat? a, Scaled.ofFloat? b, Scaled.ofFloat? c with
  | some x, some y, some z =>
    let s := (x.mul y).add z
    -- an exact zero takes its sign from the rounded operations
    if s.mantissa = 0 then a * b + c else s.round
  | some _, some _, none => c
  | _, _, _ => a * b + c

/-- The length of the vector `(x, y)`, rounded once and safe from overflow on the way. -/
def hypotenuse (x y : Float) : Float :=
  match Scaled.ofFloat? x, Scaled.ofFloat? y with
  | some a, some b => ((a.mul a).add (b.mul b)).sqrt
  | _, _ => if x.isInf || y.isInf then 1 / 0 else x + y

/-- A whole number cut off toward zero and kept in the 64-bit range; a NaN becomes zero. -/
def truncateInt64 (x : Float) : Int :=
  match Scaled.ofFloat? x with
  | some s => clampInt64 (if 0 ≤ s.mantissa then s.floor else s.ceil)
  | none => if x.isNaN then 0 else if 0 < x then int64Range.2 else int64Range.1

/-- The nearest whole number, halves away from zero, kept in the 64-bit range; a NaN becomes
zero. -/
def roundInt64 (x : Float) : Int :=
  match Scaled.ofFloat? x with
  | some s => clampInt64 s.roundHalfAway
  | none => truncateInt64 x

/-- The least natural number that is not below the float, at most `2 ^ 64 - 1`; a NaN becomes
zero. -/
def ceilNat (x : Float) : Nat :=
  match Scaled.ofFloat? x with
  | some s => min s.ceil.toNat (twoTo 64 - 1)
  | none => if x.isNaN || x < 0 then 0 else twoTo 64 - 1

/-- A float order that is total: negative NaN, the numbers from below with `-0` before `0`, then
positive NaN. -/
def totalKey (x : Float) : Int :=
  let bits : Int := x.toBits.toNat
  if bits < twoTo 63 then bits else twoTo 63 - 1 - bits

end Binary64

end Geotrack
