import Spreadsheet.Cell
import Spreadsheet.Matrix

/-!
A sheet: its sparse cells, its bounds, which grow when a cell outside them is written and never shrink,
and what is known about single rows and columns.
-/

namespace Spreadsheet

open Std

/-- The height or width of a row or column, where it is not the default, and whether it is hidden. -/
structure LineInfo where
  size : Option Float := none
  hidden : Bool := false

structure Sheet where
  id : String
  name : String
  cells : Matrix Cell := Matrix.empty
  rowCount : Nat := 1000
  colCount : Nat := 20
  rows : ExtTreeMap Nat LineInfo := ∅
  cols : ExtTreeMap Nat LineInfo := ∅

namespace Sheet

/-- The largest counts that rows and columns can reach. -/
def rowCountLimit : Nat := Nat.pow 2 32 - 1
def colCountLimit : Nat := Nat.pow 2 16 - 1

def withSize (s : Sheet) (rows cols : Nat) : Sheet :=
  { s with rowCount := max 1 (min rows maxRows), colCount := max 1 (min cols maxCols) }

def cell? (s : Sheet) (row col : Nat) : Option Cell := s.cells.get? row col

def value (s : Sheet) (row col : Nat) : Scalar :=
  match s.cell? row col with
  | some c => c.read
  | none => .empty

/-- The formula cells row by row. -/
def formulas (s : Sheet) : List (Position × StoredFormula) :=
  s.cells.toList.filterMap fun (p, c) => c.formula.map (p, ·)

def growTo (s : Sheet) (row col : Nat) : Sheet :=
  { s with
    rowCount := max s.rowCount (min (row + 1) rowCountLimit)
    colCount := max s.colCount (min (col + 1) colCountLimit) }

/-- Replaces a cell; an empty one is not stored. -/
def setCell (s : Sheet) (row col : Nat) (c : Cell) : Sheet :=
  let s := s.growTo row col
  { s with cells := if c.isEmpty then s.cells.erase row col else s.cells.insert row col c }

/-- Stores a plain value and drops the formula. -/
def setValue (s : Sheet) (row col : Nat) (v : Scalar) : Sheet := s.setCell row col (Cell.ofValue v)

/-- Stores a formula and keeps the value calculated before. -/
def setFormula (s : Sheet) (row col : Nat) (f : StoredFormula) : Sheet :=
  let s := s.growTo row col
  let value := (s.cell? row col).bind (·.value)
  { s with cells := s.cells.insert row col { value, formula := some f } }

/-- Stores a calculated value and keeps the formula. -/
def setCalculated (s : Sheet) (row col : Nat) (v : Scalar) : Sheet :=
  let s := s.growTo row col
  let formula := (s.cell? row col).bind (·.formula)
  { s with cells := s.cells.insert row col { value := some v, formula } }

def clear (s : Sheet) (row col : Nat) : Sheet := { s with cells := s.cells.erase row col }

def setRow (s : Sheet) (row : Nat) (info : LineInfo) : Sheet :=
  { s with rows := s.rows.insert row info }

def setCol (s : Sheet) (col : Nat) (info : LineInfo) : Sheet :=
  { s with cols := s.cols.insert col info }

def rowHidden (s : Sheet) (row : Nat) : Bool := (s.rows[row]?.map (·.hidden)).getD false

def colHidden (s : Sheet) (col : Nat) : Bool := (s.cols[col]?.map (·.hidden)).getD false

end Sheet

end Spreadsheet
