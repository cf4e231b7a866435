/-!
# Byte order marks

A mark in front of a document tells how it is encoded and is no part of its text.
-/

namespace Geotrack

/-- The characters of a document without a byte order mark in front. -/
def withoutMark (document : String) : List Char :=
  match document.toList with
  | '\ufeff' :: cs => cs
  | cs => cs

end Geotrack
