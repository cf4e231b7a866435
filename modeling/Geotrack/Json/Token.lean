import Geotrack.Json.Basic
import Geotrack.Number.Power
import Geotrack.Number.Reading

/-!
# Json tokens

`Token.all?` cuts a text into brackets, separators, words, texts and numbers. Blanks between
tokens are dropped; a character that starts no token refuses the text.
-/

namespace Geotrack.Json

inductive Token where
  | openArray
  | closeArray
  | openObject
  | closeObject
  | comma
  | colon
  /-- A whole value: a word, a number or a text. -/
  | scalar (value : Json)
  deriving Repr, Inhabited

namespace Token

/-- The blanks of the format. -/
def isSpace (c : Char) : Bool := c = ' ' || c = '\t' || c = '\n' || c = '\r'

/-- The number of a group of four hexadecimal digits. -/
def hexGroup? (a b c d : Char) : Option Nat := hexValue? [a, b, c, d]

/-- The character that a backslash and one letter stand for. -/
def escape? : Char → Option Char
  | '"' => some '"'
  | '\\' => some '\\'
  | '/' => some '/'
  | 'b' => some '\x08'
  | 'f' => some '\x0c'
  | 'n' => some '\n'
  | 'r' => some '\r'
  | 't' => some '\t'
  | _ => none

/-- The characters of a text up to its closing quote after those `done`, last first, and what
follows the quote. Control characters must be escaped, and the halves of a surrogate pair must
stand together. -/
def string? (done : List Char) : List Char → Option (List Char × List Char)
  | [] => none
  | '"' :: rest => some (done.reverse, rest)
  | '\\' :: 'u' :: a :: b :: c :: d :: rest =>
    match hexGroup? a b c d with
    | none => none
    | some n =>
      if 0xdc00 ≤ n ∧ n ≤ 0xdfff then none
      else if 0xd800 ≤ n ∧ n ≤ 0xdbff then
        match rest with
        | '\\' :: 'u' :: a :: b :: c :: d :: rest =>
          match hexGroup? a b c d with
          | some m =>
            if 0xdc00 ≤ m ∧ m ≤ 0xdfff then
              string? (Char.ofNat (0x10000 + (n - 0xd800) * 0x400 + (m - 0xdc00)) :: done) rest
            else none
          | none => none
        | _ => none
      else string? (Char.ofNat n :: done) rest
  | '\\' :: c :: rest =>
    match escape? c with
    | some c => string? (c :: done) rest
    | none => none
  | c :: rest => if c.toNat < 0x20 then none else string? (c :: done) rest

/-- The largest number of 64 bits. -/
def largestWord : Nat := twoTo 64 - 1

/-- Digits appended to a significand as long as it fits 64 bits, and the count of those left out. -/
def appendDigits (significand : Nat) : List Char → Nat × Nat
  | [] => (significand, 0)
  | c :: cs =>
    let next := 10 * significand + (c.toNat - '0'.toNat)
    if next ≤ largestWord then appendDigits next cs else (significand, cs.length + 1)

/-- The significand times `10 ^ exponent`, with one rounding for each factor up to `10 ^ 308`; none
where it is too large for a float. -/
def scaled? (significand : Float) (exponent : Int) : (fuel : Nat) → Option Float
  | 0 => some 0
  | fuel + 1 =>
    if exponent < -308 then
      if significand == 0 then some 0
      else scaled? (significand / Float.ofScientific 1 false 308) (exponent + 308) fuel
    else if significand == 0 then some 0
    else if exponent < 0 then some (significand / Float.ofScientific 1 false exponent.natAbs)
    else if 308 < exponent then none
    else
      let x := significand * Float.ofScientific 1 false exponent.toNat
      if x.isInf then none else some x

/-- The fraction of a number: a point and at least one digit, or nothing. -/
def fraction? : List Char → Option (Option (List Char) × List Char)
  | '.' :: cs =>
    match splitDigits cs with
    | ([], _) => none
    | (ds, rest) => some (some ds, rest)
  | cs => some (none, cs)

/-- The exponent of a number: `e`, an optional sign and at least one digit, or nothing. -/
def exponent? : List Char → Option (Option Int × List Char)
  | c :: cs =>
    if c = 'e' ∨ c = 'E' then
      let (negative, digits) : Bool × List Char :=
        match cs with
        | '-' :: r => (true, r)
        | '+' :: r => (false, r)
        | r => (false, r)
      match splitDigits digits with
      | ([], _) => none
      | (ds, rest) =>
        let n : Int := digitsValue ds
        some (some (if negative then -n else n), rest)
    else some (none, c :: cs)
  | [] => some (none, [])

/-- A whole number as data: one that fits 64 bits stays whole, but minus zero is a float. -/
def wholeNumber (negative : Bool) (digits : List Char) : Option Json :=
  let n := digitsValue digits
  if negative then
    if 0 < n ∧ n ≤ twoTo 63 then some (.integer (-(n : Int)))
    else if n ≤ largestWord then some (.real (-(Float.ofNat n)))
    else
      let (s, dropped) := appendDigits 0 digits
      (scaled? (Float.ofNat s) dropped 4).map (.real <| - ·)
  else if n ≤ largestWord then some (.integer n)
  else
    let (s, dropped) := appendDigits 0 digits
    (scaled? (Float.ofNat s) dropped 4).map .real

/-- The number at the front of a text. A zero is not followed by another digit before the point. -/
def number? (cs : List Char) : Option (Json × List Char) := do
  let (negative, cs) : Bool × List Char :=
    match cs with
    | '-' :: r => (true, r)
    | r => (false, r)
  let (whole, rest) := splitDigits cs
  if whole.isEmpty || (whole.head? = some '0' && whole.length ≠ 1) then none
  let (fraction, rest) ← fraction? rest
  let (exponent, rest) ← exponent? rest
  match fraction, exponent with
  | none, none => (wholeNumber negative whole).map (·, rest)
  | _, _ =>
    let (s, droppedWhole) := appendDigits 0 whole
    let ds := fraction.getD []
    let (s, droppedFraction) := appendDigits s ds
    let kept : Int := ds.length - droppedFraction
    let x ← scaled? (Float.ofNat s) (droppedWhole - kept + exponent.getD 0) 4
    some (.real (if negative then -x else x), rest)

/-- The token at the front of a text that starts with no blank. -/
def read? : List Char → Option (Token × List Char)
  | '[' :: r => some (.openArray, r)
  | ']' :: r => some (.closeArray, r)
  | '\x7b' :: r => some (.openObject, r)
  | '\x7d' :: r => some (.closeObject, r)
  | ',' :: r => some (.comma, r)
  | ':' :: r => some (.colon, r)
  | '"' :: r => (string? [] r).map fun (cs, rest) => (.scalar (.text (String.ofList cs)), rest)
  | 'n' :: 'u' :: 'l' :: 'l' :: r => some (.scalar .null, r)
  | 't' :: 'r' :: 'u' :: 'e' :: r => some (.scalar (.bool true), r)
  | 'f' :: 'a' :: 'l' :: 's' :: 'e' :: r => some (.scalar (.bool false), r)
  | cs => (number? cs).map fun (v, rest) => (.scalar v, rest)

/-- All tokens of a text. -/
def all? (cs : List Char) : Option (List Token) :=
  match cs with
  | [] => some []
  | c :: cs =>
    if isSpace c then all? cs
    else
      match read? (c :: cs) with
      | none => none
      | some (t, rest) =>
        -- a token has at least one character
        if rest.length < (c :: cs).length then (all? rest).map (t :: ·) else none
termination_by cs.length
decreasing_by
  · exact Nat.lt_succ_self _
  · assumption

end Token

end Geotrack.Json
