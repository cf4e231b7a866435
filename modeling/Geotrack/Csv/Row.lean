import Geotrack.Text.Mark

/-!
# Rows of cells

A table is a text of rows, and a row is a list of cells with commas between them. A cell that starts
with a quote goes on to the next single quote; a quote inside it is written twice. `Csv.rows` reads
any text. It is one fold over the characters, whose state is a `Scan`.
-/

namespace Geotrack.Csv

/-- A row that was read. -/
structure Row where
  /-- The line right behind the row before it, and 1 for the first row. Line feeds are counted. -/
  line : Nat
  cells : List String
  deriving DecidableEq, Repr

/-- Where the next character of a table stands. -/
inductive Place where
  | rowStart
  | cellStart
  /-- Inside a cell, outside quotes. -/
  | bare
  | quoted
  /-- Behind a quote that ends a quoted part, or is the first of two. -/
  | quoteSeen
  deriving DecidableEq, Repr

/-- What has been read of a table. -/
structure Scan where
  place : Place := .rowStart
  /-- The line of the next character. -/
  line : Nat := 1
  /-- The line of the open row. -/
  rowLine : Nat := 1
  /-- The open cell, last character first. -/
  cell : List Char := []
  /-- The finished cells of the open row, last one first. -/
  cells : List String := []
  /-- The finished rows, last one first. -/
  rows : List Row := []

/-- Whether a character ends a row. -/
def isBreak (c : Char) : Bool := c = '\n' || c = '\r'

namespace Scan

def push (s : Scan) (place : Place) (c : Char) : Scan := { s with place, cell := c :: s.cell }

def endCell (s : Scan) : Scan :=
  { s with place := .cellStart, cell := [], cells := String.ofList s.cell.reverse :: s.cells }

def endRow (s : Scan) : Scan :=
  let s := s.endCell
  { s with
    place := .rowStart
    cells := []
    rowLine := s.line
    rows := ⟨s.rowLine, s.cells.reverse⟩ :: s.rows }

/-- Reads a character outside quotes. -/
def readBare (s : Scan) (c : Char) : Scan :=
  if c = ',' then s.endCell else if isBreak c then s.endRow else s.push .bare c

/-- Reads the first character of a cell. -/
def readFirst (s : Scan) (c : Char) : Scan :=
  if c = '"' then { s with place := .quoted } else s.readBare c

/-- Reads a character. Breaks before a row are skipped. -/
def step (s : Scan) (c : Char) : Scan :=
  let s := if c = '\n' then { s with line := s.line + 1 } else s
  match s.place with
  | .rowStart => if isBreak c then s else s.readFirst c
  | .cellStart => s.readFirst c
  | .bare => s.readBare c
  | .quoted => if c = '"' then { s with place := .quoteSeen } else s.push .quoted c
  | .quoteSeen => if c = '"' then s.push .quoted c else s.readBare c

/-- The rows once the text has ended, which ends an open row too. -/
def finish (s : Scan) : List Row := (if s.place = .rowStart then s else s.endRow).rows.reverse

end Scan

/-- The rows of a table. -/
def rows (text : String) : List Row := ((withoutMark text).foldl Scan.step {}).finish

end Geotrack.Csv
