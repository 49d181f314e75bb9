import Spreadsheet.Books
import Spreadsheet.Dependency.Changes

/-!
What a host hands over before it has something calculated: workbooks, formulas, what arrays have spilled
before, and what has changed. Tables are lists of entries with different keys; they count the same in any
order, but for definitions and workbooks whose names differ in nothing but case.
-/

namespace Spreadsheet

open Dependency

/-- Something for each of some sheets, by workbook and sheet. -/
abbrev PerSheet (α : Type) := List (String × List (String × α))

namespace PerSheet

/-- Something for each of some cells. -/
def places {α : Type} (t : PerSheet (List (Position × α))) : List (Place × α) :=
  t.flatMap fun (book, sheets) => sheets.flatMap fun (sheet, cells) =>
    cells.map fun (p, a) => (⟨book, sheet, p.row, p.col⟩, a)

/-- Something for each of some ids. -/
def keyed {α : Type} (t : PerSheet (List (String × α))) : List (ItemKey × α) :=
  t.flatMap fun (book, sheets) => sheets.flatMap fun (sheet, ids) =>
    ids.map fun (id, a) => (⟨book, sheet, id⟩, a)

/-- The workbooks that have an entry, be it an empty one. -/
def books {α : Type} (t : PerSheet α) : List String := t.map (·.1)

end PerSheet

/-- A formula that is not in a cell, and the ranges it is about. -/
structure OtherFormula where
  text : String
  ranges : List Range := []
deriving DecidableEq

/-- The cell relative to which the formula is read: the first of its ranges, else the first cell. -/
def OtherFormula.anchor (f : OtherFormula) : Position :=
  match f.ranges with
  | r :: _ => ⟨r.start.row, r.start.col⟩
  | [] => ⟨0, 0⟩

structure Dataset where
  /-- Formulas that come in place of those stored in the workbooks. -/
  formulas : PerSheet (List (Position × StoredFormula)) := []
  others : PerSheet (List (String × OtherFormula)) := []
  /-- Where arrays have spilled, by anchor. -/
  arrayRanges : PerSheet (List (Position × Range)) := []
  arrayValues : PerSheet (List (Position × Scalar)) := []
  /-- Everything counts as changed. -/
  force : Bool := false
  dirtyRanges : List Region := []
  /-- Names of sheets that came, went or were renamed, by workbook and sheet. -/
  dirtySheetNames : PerSheet String := []
  /-- Changed definitions by workbook and name; the text is blank where one is gone. -/
  dirtyNames : PerSheet String := []
  dirtyFeatures : PerSheet (List (String × Bool)) := []
  dirtyOthers : PerSheet (List (String × Bool)) := []
  features : List Feature := []
  /-- Number formats. -/
  formats : PerSheet (List (Position × String)) := []
  /-- Cells that are not to be calculated. -/
  excluded : PerSheet (List (Position × Bool)) := []
  books : Books := {}
  names : Option NameTable := none

end Spreadsheet
