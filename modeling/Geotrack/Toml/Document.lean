import Geotrack.Text.Mark
import Geotrack.Toml.Scalar
import Geotrack.Toml.Table
import Geotrack.Toml.Text

/-!
# TOML documents

`Toml.parse?` reads a document as an object of data. A document is a list of lines: a header opens a
table, and the keys after it are set in that table.
-/

namespace Geotrack.Toml

/-- How deep arrays and tables in braces may be nested. -/
def deepest : Nat := 80

mutual

/-- The value at the front of a text. -/
def value? (depth : Nat) : (fuel : Nat) → List Char → Option (Json × List Char)
  | 0, _ => none
  | fuel + 1, cs =>
    match cs with
    | '"' :: _ => (text? cs).map fun (s, rest) => (.text s, rest)
    | '\'' :: _ => (text? cs).map fun (s, rest) => (.text s, rest)
    | '[' :: rest => if depth < deepest then items? (depth + 1) fuel [] rest else none
    | '\x7b' :: rest => if depth < deepest then fields? (depth + 1) fuel [] rest else none
    | cs => scalar? cs

/-- The rest of an array after some items, last one first, each with its comma. -/
def items? (depth : Nat) : (fuel : Nat) → List Json → List Char → Option (Json × List Char)
  | 0, _, _ => none
  | fuel + 1, done, cs =>
    match skipLines false cs with
    | ']' :: rest => some (.array done.reverse, rest)
    | cs => do
      let (v, rest) ← value? depth fuel cs
      match skipLines false rest with
      | ',' :: rest => items? depth fuel (v :: done) rest
      | ']' :: rest => some (.array (v :: done).reverse, rest)
      | _ => none

/-- The rest of a table in braces after some entries, each with its comma. -/
def fields? (depth : Nat) : (fuel : Nat) → Entries → List Char → Option (Json × List Char)
  | 0, _, _ => none
  | fuel + 1, entries, cs =>
    match skipLines false cs with
    | '\x7d' :: rest => some (.object (entriesToJson entries), rest)
    | cs => do
      let (key, rest) ← key? cs.length cs
      let (v, rest) ← value? depth fuel (skipGap (← after? '=' rest))
      let entries ← entries.set key v
      match skipLines false rest with
      | ',' :: rest => fields? depth fuel entries rest
      | '\x7d' :: rest => some (.object (entriesToJson entries), rest)
      | _ => none

end

/-- Reads the lines of a document into its tables; the last header names the open table. -/
def lines? : (fuel : Nat) → (header : List String) → Entries → List Char → Option Entries
  | 0, _, _, _ => none
  | fuel + 1, header, entries, cs =>
    match skipGap cs with
    | [] => some entries
    | '[' :: '[' :: rest => do
      let (header, rest) ← key? rest.length rest
      let rest ← nextLine? (← after? ']' (← after? ']' rest))
      lines? fuel header (← entries.openRow header) rest
    | '[' :: rest => do
      let (header, rest) ← key? rest.length rest
      let rest ← nextLine? (← after? ']' rest)
      lines? fuel header (← entries.openTable header) rest
    | c :: rest =>
      if c = '#' ∨ c = '\r' ∨ c = '\n' then do lines? fuel header entries (← nextLine? (c :: rest))
      else do
        let (key, rest) ← key? (c :: rest).length (c :: rest)
        let (v, rest) ← value? 0 rest.length (skipGap (← after? '=' rest))
        lines? fuel header (← entries.setUnder header key v) (← nextLine? rest)

/-- The data of a document. A byte order mark in front of it does not count. -/
def parse? (s : String) : Option Json :=
  let cs := withoutMark s
  (lines? (cs.length + 1) [] [] cs).map fun entries => .object (entriesToJson entries)

end Geotrack.Toml
