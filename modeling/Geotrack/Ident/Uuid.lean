import Geotrack.Number.Power
import Geotrack.Number.Reading

/-!
# Universally unique identifiers

An identifier is a 128-bit number. Four writings are read: 32 hexadecimal digits, the digits in
groups of 8, 4, 4, 4 and 12 with hyphens between them, the grouped form in braces, and the grouped
form after `urn:uuid:`. One is written: the grouped form in lower case.
-/

namespace Geotrack

structure Uuid where
  bits : Nat
  bits_lt : bits < twoTo 128 := by decide
  deriving DecidableEq, Repr

namespace Uuid

/-- The identifier without a bit set. -/
def nil : Uuid := { bits := 0 }

instance : Inhabited Uuid := ⟨nil⟩

/-- Identifiers are ordered as the numbers that they are. -/
def le (a b : Uuid) : Bool := a.bits ≤ b.bits

/-- The identifier of 32 hexadecimal digits. -/
def ofDigits? (cs : List Char) : Option Uuid :=
  if cs.length = 32 then
    (hexValue? cs).bind fun n => if h : n < twoTo 128 then some ⟨n, h⟩ else none
  else none

/-- The digits of a grouped writing, whose hyphens stand at four set places. -/
def ungroup? (cs : List Char) : Option (List Char) :=
  if cs.length = 36 ∧ [8, 13, 18, 23].all (fun i => cs[i]? = some '-') then
    let group (start : Nat) : List Char := (cs.drop start).take 4
    some (cs.take 8 ++ group 9 ++ group 14 ++ group 19 ++ cs.drop 24)
  else none

/-- The identifier that a text writes. -/
def parse? (s : String) : Option Uuid :=
  let cs := s.toList
  let grouped (cs : List Char) : Option Uuid := (ungroup? cs).bind ofDigits?
  match cs.length with
  | 32 => ofDigits? cs
  | 36 => grouped cs
  | 38 =>
    if cs.head? = some '\x7b' ∧ cs.getLast? = some '\x7d' then grouped (cs.drop 1).dropLast
    else none
  | 45 => if cs.take 9 = "urn:uuid:".toList then grouped (cs.drop 9) else none
  | _ => none

/-- The hexadecimal digits of a number, the last `count` of them. -/
def hexDigits : (count n : Nat) → List Char
  | 0, _ => []
  | count + 1, n => hexDigits count (n / 16) ++ [Nat.digitChar (n % 16)]

/-- The grouped writing in lower case. -/
def toText (u : Uuid) : String :=
  let ds := hexDigits 32 u.bits
  let group (start count : Nat) : String := String.ofList ((ds.drop start).take count)
  "-".intercalate [group 0 8, group 8 4, group 12 4, group 16 4, group 20 12]

instance : ToString Uuid := ⟨toText⟩

end Uuid

end Geotrack
