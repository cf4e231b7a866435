import Geotrack.Number.Decimal
import Geotrack.Number.Reading
import Geotrack.Text.Blank
import Geotrack.Time.Calendar
import Geotrack.Time.Instant

/-!
# Written timestamps

A timestamp is written as a date and a time of day in UTC, `2024-06-01T00:00:00Z`, with three, six
or nine decimals of the second where it has a fraction, and with a signed year outside 0 to 9999.
Reading is more liberal: any offset, blanks before each number and sign, one digit for a two-digit
field, and a blank in place of the `T`.
-/

namespace Geotrack.Timestamp

/-- The number at the front of a text, at most `width` digits of it; there must be one digit. -/
def number? (width : Nat) (cs : List Char) : Option (Nat × List Char) :=
  let ds := (cs.take width).takeWhile Char.isDigit
  if ds.isEmpty then none else some (digitsValue ds, cs.drop ds.length)

/-- A number of one or two digits after blanks. -/
def field? (cs : List Char) : Option (Nat × List Char) := number? 2 (skipBlanks cs)

/-- The text after a set character, blanks allowed before it. -/
def separator? (c : Char) (cs : List Char) : Option (List Char) :=
  match skipBlanks cs with
  | d :: r => if d = c then some r else none
  | [] => none

/-- A year: up to four digits, or a sign and any number of digits. -/
def year? (cs : List Char) : Option (Int × List Char) :=
  match skipBlanks cs with
  | '-' :: r => (number? r.length r).map fun (n, r) => (-(n : Int), r)
  | '+' :: r => (number? r.length r).map fun (n, r) => ((n : Int), r)
  | r => (number? 4 r).map fun (n, r) => ((n : Int), r)

def date? (cs : List Char) : Option (Date × List Char) := do
  let (year, cs) ← year? cs
  let cs ← separator? '-' cs
  let (month, cs) ← field? cs
  let cs ← separator? '-' cs
  let (day, cs) ← field? cs
  let date : Date := ⟨year, month, day⟩
  if -262143 ≤ year ∧ year ≤ 262142 ∧ date.exists? then some (date, cs) else none

/-- The nanoseconds of a fraction, digits past the ninth dropped. Without a point there are none. -/
def fraction? : List Char → Option (Nat × List Char)
  | '.' :: cs =>
    let (ds, rest) := splitDigits cs
    if ds.isEmpty then none
    else
      let kept := ds.take 9
      some (digitsValue kept * tenTo (9 - kept.length), rest)
  | cs => some (0, cs)

/-- A time of day as seconds and nanoseconds. The second 60 is a leap second after second 59. -/
def timeOfDay? (cs : List Char) : Option (Nat × Nat × List Char) := do
  let (hour, cs) ← field? cs
  let cs ← separator? ':' cs
  let (minute, cs) ← field? cs
  let cs ← separator? ':' cs
  let (second, cs) ← field? cs
  let (nano, cs) ← fraction? cs
  if hour ≤ 23 ∧ minute ≤ 59 ∧ second ≤ 60 then
    let whole := hour * 3600 + minute * 60
    if second = 60 then some (whole + 59, 1000000000 + nano, cs)
    else some (whole + second, nano, cs)
  else none

/-- An offset from UTC in seconds: `Z`, `UTC`, or a sign with hours and minutes of two digits. -/
def offset? (cs : List Char) : Option (Int × List Char) :=
  let word := String.ofList (cs.take 3)
  if word.toLower = "utc" then some (0, cs.drop 3)
  else
    match cs with
    | 'Z' :: r | 'z' :: r => some (0, r)
    | s :: r =>
      if s = '+' ∨ s = '-' ∨ s = '\u2212' then
        let hours := r.take 2
        let afterHours := (r.drop 2).dropWhile fun c => c = ':' || isBlank c
        let minutes := afterHours.take 2
        let twoDigits (ds : List Char) : Bool := ds.length = 2 && ds.all Char.isDigit
        if twoDigits hours ∧ twoDigits minutes ∧ digitsValue minutes < 60 ∧
            digitsValue hours < 24 then
          let size : Int := digitsValue hours * 3600 + digitsValue minutes * 60
          some (if s = '+' then size else -size, afterHours.drop 2)
        else none
      else none
    | [] => none

/-- The instant of a local date and time of day, if it has a date in UTC. -/
def instant? (date : Date) (second nano : Nat) (offset : Int) : Option Instant :=
  if h : nano < 2000000000 then
    let t : Instant := ⟨date.toDay * secondsPerDay + second - offset, nano, h⟩
    if t.inRange then some t else none
  else none

/-- The instant that a text writes. -/
def parse? (s : String) : Option Instant := do
  let (date, cs) ← date? s.toList
  let cs ← match cs with
    | c :: r => if c = 'T' ∨ c = 't' ∨ c = ' ' then some r else none
    | [] => none
  let (second, nano, cs) ← timeOfDay? cs
  let (offset, cs) ← offset? (skipBlanks cs)
  if (skipBlanks cs).isEmpty then instant? date second nano offset else none

/-- The decimals of a second: none, three, six or nine of them, the fewest that are exact. -/
def fractionText (nano : Nat) : String :=
  if nano = 0 then ""
  else if nano % 1000000 = 0 then "." ++ Decimal.padded 3 (nano / 1000000)
  else if nano % 1000 = 0 then "." ++ Decimal.padded 6 (nano / 1000)
  else "." ++ Decimal.padded 9 nano

def yearText (year : Int) : String :=
  if 0 ≤ year ∧ year ≤ 9999 then Decimal.padded 4 year.toNat
  else (if year < 0 then "-" else "+") ++ Decimal.padded 4 year.natAbs

/-- The text of an instant in UTC. -/
def toText (t : Instant) : String :=
  let date := Date.ofDay (t.second / secondsPerDay)
  let second := (t.second % secondsPerDay).toNat
  -- a leap second is the second 60 of its minute
  let leap := if t.inLeapSecond then 1 else 0
  let two := Decimal.padded 2
  yearText date.year ++ "-" ++ two date.month ++ "-" ++ two date.day ++ "T" ++
    two (second / 3600) ++ ":" ++ two (second / 60 % 60) ++ ":" ++ two (second % 60 + leap) ++
    fractionText (t.nano - leap * 1000000000) ++ "Z"

end Geotrack.Timestamp
