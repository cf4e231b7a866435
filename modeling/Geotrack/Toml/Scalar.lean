import Geotrack.Json.Basic
import Geotrack.Number.Power
import Geotrack.Number.Reading
import Geotrack.Time.Calendar

/-!
# Plain values in TOML

Words, numbers, dates and times stand in a document without quotes. Digits may be grouped by single
underscores. Json has no dates: a date or time becomes an object that holds its text.
-/

namespace Geotrack.Toml

/-- Digits without the underscores between them. -/
def ungrouped? (isDigit : Char → Bool) : List Char → Option (List Char)
  | [] => none
  | [c] => if isDigit c then some [c] else none
  | c :: '_' :: rest => if isDigit c then (ungrouped? isDigit rest).map (c :: ·) else none
  | c :: rest => if isDigit c then (ungrouped? isDigit rest).map (c :: ·) else none

/-- Decimal digits that do not start with a needless zero. -/
def wholeDigits? (cs : List Char) : Option (List Char) := do
  let ds ← ungrouped? Char.isDigit cs
  if ds.head? = some '0' ∧ ds.length ≠ 1 then none else some ds

/-- Digits of a base up to ten as a number. -/
def valueIn (base : Nat) (ds : List Char) : Nat :=
  ds.foldl (fun n c => base * n + (c.toNat - '0'.toNat)) 0

/-- A whole number without a sign. -/
def natural? : List Char → Option Nat
  | '0' :: 'x' :: cs => (ungrouped? (fun c => (hexDigit? c).isSome) cs).bind hexValue?
  | '0' :: 'o' :: cs => (ungrouped? (fun c => '0' ≤ c && c ≤ '7') cs).map (valueIn 8)
  | '0' :: 'b' :: cs => (ungrouped? (fun c => c = '0' || c = '1') cs).map (valueIn 2)
  | cs => (wholeDigits? cs).map digitsValue

/-- A power of ten, which may have a sign. -/
def power? : List Char → Option Int
  | '-' :: cs => (ungrouped? Char.isDigit cs).map fun ds => -(digitsValue ds : Int)
  | '+' :: cs => (ungrouped? Char.isDigit cs).map fun ds => (digitsValue ds : Int)
  | cs => (ungrouped? Char.isDigit cs).map fun ds => (digitsValue ds : Int)

/-- What stands before and after the first character of a kind. -/
def splitAtFirst (p : Char → Bool) (cs : List Char) : List Char × Option (List Char) :=
  let front := cs.takeWhile (!p ·)
  match cs.drop front.length with
  | [] => (front, none)
  | _ :: rest => (front, some rest)

/-- A float without a sign: it has a fraction or a power of ten, and is not too large. -/
def magnitude? (cs : List Char) : Option Float := do
  if cs = "inf".toList then return 1 / 0
  if cs = "nan".toList then return 0 / 0
  let (mantissa, power) := splitAtFirst (fun c => c = 'e' || c = 'E') cs
  let (whole, fraction) := splitAtFirst (· = '.') mantissa
  if fraction.isNone && power.isNone then none
  let whole ← wholeDigits? whole
  let fraction ← match fraction with
    | some ds => ungrouped? Char.isDigit ds
    | none => some []
  let power ← match power with
    | some p => power? p
    | none => some 0
  let x := Decimal.nearest (digitsValue (whole ++ fraction)) (power - fraction.length)
  if x.isInf then none else some x

/-- A number; only decimal ones may have a sign. Whole numbers have at most 128 bits. -/
def number? (cs : List Char) : Option Json :=
  let signed (negative : Bool) (cs : List Char) : Option Json :=
    match (wholeDigits? cs).map digitsValue with
    | some n => if n < twoTo 127 then some (.integer (if negative then -(n : Int) else n)) else none
    | none => (magnitude? cs).map fun x => .real (if negative then -x else x)
  match cs with
  | '-' :: cs => signed true cs
  | '+' :: cs => signed false cs
  | cs =>
    match natural? cs with
    | some n => if n < twoTo 128 then some (.integer n) else none
    | none => (magnitude? cs).map .real

/-- The number of a set count of digits. -/
def digits? (count : Nat) (cs : List Char) : Option (Nat × List Char) :=
  let ds := cs.take count
  if ds.length = count ∧ ds.all Char.isDigit then some (digitsValue ds, cs.drop count) else none

/-- What follows a set character. -/
def after? (c : Char) : List Char → Option (List Char)
  | d :: rest => if d = c then some rest else none
  | [] => none

/-- What follows a date that exists. -/
def afterDate? (cs : List Char) : Option (List Char) := do
  let (year, cs) ← digits? 4 cs
  let (month, cs) ← digits? 2 (← after? '-' cs)
  let (day, cs) ← digits? 2 (← after? '-' cs)
  if (Date.mk year month day).exists? then some cs else none

/-- What follows a number of two digits up to a bound. -/
def afterField? (bound : Nat) (cs : List Char) : Option (List Char) := do
  let (n, cs) ← digits? 2 cs
  if n ≤ bound then some cs else none

/-- What follows a time of day. Its seconds may be left out. -/
def afterTime? (cs : List Char) : Option (List Char) := do
  let cs ← afterField? 23 cs
  let cs ← afterField? 59 (← after? ':' cs)
  match cs with
  | ':' :: cs =>
    match ← afterField? 60 cs with
    | '.' :: cs =>
      let (ds, rest) := splitDigits cs
      if ds.isEmpty then none else some rest
    | cs => some cs
  | cs => some cs

/-- Whether a text is an offset from UTC, or empty. -/
def isOffset : List Char → Bool
  | [] => true
  | ['Z'] => true
  | ['z'] => true
  | c :: cs =>
    let rest : Option (List Char) := do afterField? 59 (← after? ':' (← afterField? 23 cs))
    (c = '+' || c = '-') && rest = some []

/-- Whether a text is a date, a time, or a date and a time. -/
def isMoment (cs : List Char) : Bool :=
  match afterDate? cs with
  | some [] => true
  | some (c :: cs) => (c = 'T' || c = 't' || c = ' ') && (afterTime? cs).any isOffset
  | none => afterTime? cs = some []

/-- The value of a plain word. -/
def plain? (cs : List Char) : Option Json :=
  if cs = "true".toList then some (.bool true)
  else if cs = "false".toList then some (.bool false)
  else if isMoment cs then some (.object [("datetime", .text (String.ofList cs))])
  else number? cs

def isPlainValue (c : Char) : Bool :=
  c.isAlphanum || c = '_' || c = '+' || c = '-' || c = '.' || c = ':'

/-- The plain value at the front of a text. A blank may stand between a date and a time. -/
def scalar? (cs : List Char) : Option (Json × List Char) :=
  let word := cs.takeWhile isPlainValue
  let rest := cs.drop word.length
  let (word, rest) : List Char × List Char :=
    match afterDate? word, rest with
    | some [], ' ' :: c :: more =>
      if c.isDigit then
        let time := (c :: more).takeWhile isPlainValue
        (word ++ ' ' :: time, (c :: more).drop time.length)
      else (word, rest)
    | _, _ => (word, rest)
  (plain? word).map (·, rest)

end Geotrack.Toml
