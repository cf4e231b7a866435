import Geotrack.Number.Scaled

/-!
# Decimal text of binary64 numbers

`fixed` writes a number with a set count of decimals, `shortest` with the fewest digits that read
back as the same number. Both are exact: every comparison is one of natural numbers.
-/

namespace Geotrack

/-- The quotient `num / den` rounded to the nearest natural number, a tie going to the even one. -/
def divHalfEven (num den : Nat) : Nat :=
  let q := num / den
  let r := num % den
  if 2 * r < den then q
  else if den < 2 * r then q + 1
  else q + q % 2

namespace Decimal

/-- The decimal digits of a number, at least `width` of them. -/
def padded (width n : Nat) : String :=
  let digits := toString n
  "".pushn '0' (width - digits.length) ++ digits

/-- The texts of the values that have no digits. -/
def special? (x : Float) : Option String :=
  if x.isNaN then some "NaN"
  else if x.isInf then some (if x < 0 then "-inf" else "inf")
  else none

/-- The sign of a number as text; negative zero has one too. -/
def signText (x : Float) : String :=
  if x.toBits.toNat < twoTo 63 then "" else "-"

/-- The magnitude counted in units of `10 ^ -places`, rounded half to even. -/
def unitsOf (places : Nat) (x : Scaled) : Nat :=
  let m := x.mantissa.natAbs * tenTo places
  if 0 ≤ x.exponent then m * twoTo x.exponent.toNat
  else divHalfEven m (twoTo (-x.exponent).toNat)

/-- A count of units of `10 ^ -places` in positional writing. -/
def positional (places units : Nat) : String :=
  let whole := toString (units / tenTo places)
  if places = 0 then whole else whole ++ "." ++ padded places (units % tenTo places)

/-- A number with a set count of decimals, never with an exponent. -/
def fixed (places : Nat) (x : Float) : String :=
  match Scaled.ofFloat? x with
  | some s => signText x ++ positional places (unitsOf places s)
  | none => (special? x).getD ""

/-- The value `digits * 10 ^ exponent`. -/
structure Digits where
  digits : Nat
  exponent : Int
  deriving DecidableEq, Repr

/-- The reals that round to one positive float, in units of `2 ^ exponent`: from `low` to `high`
around `value`, the ends included or not. -/
structure Neighbourhood where
  low : Nat
  value : Nat
  high : Nat
  exponent : Int
  closed : Bool

/-- The interval around `m * 2 ^ e`. Below a power of two the floats lie twice as close. -/
def Neighbourhood.of (m : Nat) (e : Int) : Neighbourhood :=
  { low := 4 * m - (if m = twoTo 52 ∧ -1074 < e then 1 else 2)
    value := 4 * m
    high := 4 * m + 2
    exponent := e - 2
    closed := m % 2 = 0 }

/-- A ratio of natural numbers for `n * 2 ^ e / 10 ^ k`. -/
def ratio (n : Nat) (e k : Int) : Nat × Nat :=
  (n * twoTo e.toNat * tenTo (-k).toNat, twoTo (-e).toNat * tenTo k.toNat)

/-- Whether `d * 10 ^ k` lies in the interval. -/
def Neighbourhood.holds (nb : Neighbourhood) (d : Nat) (k : Int) : Bool :=
  let (lowNum, lowDen) := ratio nb.low nb.exponent k
  let (highNum, highDen) := ratio nb.high nb.exponent k
  if nb.closed then decide (lowNum ≤ d * lowDen) && decide (d * highDen ≤ highNum)
  else decide (lowNum < d * lowDen) && decide (d * highDen < highNum)

/-- The point of the grid `10 ^ k` that lies in the interval and nearest its value, if any. -/
def Neighbourhood.onGrid? (nb : Neighbourhood) (k : Int) : Option Digits :=
  let (num, den) := ratio nb.value nb.exponent k
  let below := num / den
  let above := below + 1
  match nb.holds below k, nb.holds above k with
  | true, true => some ⟨if 2 * (num % den) ≤ den then below else above, k⟩
  | true, false => some ⟨below, k⟩
  | false, true => some ⟨above, k⟩
  | false, false => none

/-- The first of the grids `10 ^ k`, `10 ^ (k - 1)`, … with a point in the interval. -/
def Neighbourhood.coarsest (nb : Neighbourhood) (k : Int) : Nat → Digits
  | 0 => ⟨nb.value, nb.exponent⟩
  | fuel + 1 => (nb.onGrid? k).getD (nb.coarsest (k - 1) fuel)

/-- Trailing zeros moved from the digits to the exponent, at most `fuel` of them. -/
def Digits.stripZeros (d : Digits) : Nat → Digits
  | 0 => d
  | fuel + 1 =>
    if d.digits ≠ 0 ∧ d.digits % 10 = 0 then Digits.stripZeros ⟨d.digits / 10, d.exponent + 1⟩ fuel
    else d

/-- The fewest digits that read back as the positive number `m * 2 ^ e`, the nearest of those.
Seventeen digits below the leading one are always enough. -/
def shortestDigits (m : Nat) (e : Int) : Digits :=
  let bits : Int := m.log2 + e
  -- no grid above the value holds a point of the interval
  let top : Int := bits * 30103 / 100000 + 2
  ((Neighbourhood.of m e).coarsest top 40).stripZeros 40

/-- The digits of a finite float's magnitude. -/
def digitsOf (x : Scaled) : Digits :=
  if x.mantissa = 0 then ⟨0, 0⟩ else shortestDigits x.mantissa.natAbs x.exponent

/-- Digits in positional writing, with no point after a whole number. -/
def Digits.plain (d : Digits) : String :=
  if 0 ≤ d.exponent then toString (d.digits * tenTo d.exponent.toNat)
  else positional (-d.exponent).toNat d.digits

/-- The fewest digits that read back, always positional: `1`, `0.5`, `-0.0000001`. -/
def shortest (x : Float) : String :=
  match Scaled.ofFloat? x with
  | some s => signText x ++ (digitsOf s).plain
  | none => (special? x).getD ""

/-- Where a number written for a machine changes from positional writing to an exponent: the point
stands at most `positionalAbove` places right of the first digit and at most `positionalBelow`
places left of it. -/
structure ExponentStyle where
  positionalAbove : Int
  positionalBelow : Int

/-- Numbers in data files are positional from `0.00001` up to sixteen digits before the point. -/
def dataStyle : ExponentStyle := ⟨16, -5⟩

/-- The fewest digits that read back, a whole number with `.0`, very large and very small ones with
an exponent: `1.0`, `0.5`, `1e21`, `2.5e-7`. -/
def scientific (style : ExponentStyle) (x : Float) : String :=
  match Scaled.ofFloat? x with
  | some s =>
    let d := digitsOf s
    let count := (toString d.digits).length
    let point : Int := count + d.exponent
    let body :=
      if d.digits = 0 then "0.0"
      else if 0 ≤ d.exponent ∧ point ≤ style.positionalAbove then d.plain ++ ".0"
      else if style.positionalBelow < point ∧ point ≤ style.positionalAbove then d.plain
      else
        let text := toString d.digits
        let first := text.take 1
        let rest := text.drop 1
        let mantissa :=
          if rest.isEmpty then first.toString else first.toString ++ "." ++ rest.toString
        mantissa ++ "e" ++ toString (point - 1)
    signText x ++ body
  | none => (special? x).getD ""

end Decimal

end Geotrack
