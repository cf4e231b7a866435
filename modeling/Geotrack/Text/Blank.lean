/-!
# Blank characters

The characters with the Unicode property `White_Space`, and texts without blanks at their ends.
-/

namespace Geotrack

/-- Whether a character has the property `White_Space`. -/
def isBlank (c : Char) : Bool :=
  let n := c.toNat
  (0x9 ≤ n && n ≤ 0xd) || n = 0x20 || n = 0x85 || n = 0xa0 || n = 0x1680 ||
  (0x2000 ≤ n && n ≤ 0x200a) || n = 0x2028 || n = 0x2029 || n = 0x202f || n = 0x205f || n = 0x3000

/-- A text without the blanks at its front. -/
def skipBlanks (cs : List Char) : List Char := cs.dropWhile isBlank

/-- A text without the blanks at both ends. -/
def trimBlanks (s : String) : String :=
  String.ofList (skipBlanks (skipBlanks s.toList).reverse).reverse

end Geotrack
