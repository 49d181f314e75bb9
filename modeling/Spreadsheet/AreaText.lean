import Spreadsheet.Range

/-!
Areas as they are written in formulas: cells (`A1`, `A1:B2`), whole columns (`A:C`) or whole rows
(`1:3`). The limits that whole columns and rows leave out count as fixed.
-/

namespace Spreadsheet

open Text

inductive AreaForm
  | cells
  | columns
  | rows
deriving DecidableEq

namespace AreaForm

/-- A column of an area such as `$A:C`, and its mark. -/
def columnPart? (cs : List Char) : Option (Nat × Bool) :=
  let (fixed, letters) := Address.takeMark cs
  match Address.columnOfLetters letters with
  | .ok col => some (col, fixed)
  | .error _ => none

/-- A row of an area such as `1:$3`, and its mark. -/
def rowPart? (cs : List Char) : Option (Nat × Bool) :=
  let (fixed, digits) := Address.takeMark cs
  (Address.rowOfDigits? digits).map fun row => (row, fixed)

def cellsOf? (a b : List Char) : Option Range :=
  match Address.parseChars a, Address.parseChars b with
  | .ok a, .ok b => some (Range.corners a b)
  | _, _ => none

def columnsOf? (a b : List Char) : Option Range :=
  match columnPart? a, columnPart? b with
  | some (first, firstFixed), some (last, lastFixed) =>
    some (Range.corners ⟨0, first, true, firstFixed⟩ ⟨maxRows - 1, last, true, lastFixed⟩)
  | _, _ => none

def rowsOf? (a b : List Char) : Option Range :=
  match rowPart? a, rowPart? b with
  | some (first, firstFixed), some (last, lastFixed) =>
    some (Range.corners ⟨first, 0, firstFixed, true⟩ ⟨last, maxCols - 1, lastFixed, true⟩)
  | _, _ => none

/-- The range that an area text names, and the form it is written in. -/
def parseChars? (s : List Char) : Option (Range × AreaForm) :=
  let cs := trimChars s
  match Range.splitColon? cs with
  | none =>
    match Address.parseChars cs with
    | .ok a => some (Range.single a, cells)
    | .error _ => none
  | some (a, b) =>
    ((cellsOf? a b).map (·, cells)).or <| ((columnsOf? a b).map (·, columns)).or <|
      (rowsOf? a b).map (·, rows)

def parse? (s : String) : Option (Range × AreaForm) := parseChars? s.toList

/-- Writes a range in the given form. -/
def write (form : AreaForm) (r : Range) : List Char :=
  match form with
  | cells => r.chars
  | columns =>
    Address.mark r.start.colFixed ++ Address.columnLetters r.start.col ++
      ':' :: (Address.mark r.stop.colFixed ++ Address.columnLetters r.stop.col)
  | rows =>
    Address.mark r.start.rowFixed ++ Address.rowDigits r.start.row ++
      ':' :: (Address.mark r.stop.rowFixed ++ Address.rowDigits r.stop.row)

end AreaForm

/-- The range that an area text names. -/
def Range.ofArea? (s : String) : Option Range := (AreaForm.parse? s).map (·.1)

end Spreadsheet
