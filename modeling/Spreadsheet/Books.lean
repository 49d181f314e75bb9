import Spreadsheet.NameTable
import Spreadsheet.Workbook

/-!
All loaded workbooks by id: the data that formulas are evaluated against.
-/

namespace Spreadsheet

open Std

structure Books where
  byId : ExtTreeMap String Workbook := ∅

namespace Books

def empty : Books := {}

def insert (b : Books) (book : Workbook) : Books := ⟨b.byId.insert book.id book⟩

def ofList (l : List Workbook) : Books := l.foldl insert empty

def book? (b : Books) (id : String) : Option Workbook := b.byId[id]?

/-- The workbooks in the order of their ids. -/
def toList (b : Books) : List Workbook := b.byId.values

def sheet? (b : Books) (book sheet : String) : Option Sheet := (b.book? book).bind (·.sheet? sheet)

def cell? (b : Books) (p : Place) : Option Cell :=
  (b.sheet? p.book p.sheet).bind (·.cell? p.row p.col)

/-- The stored value of a cell, if its sheet exists. -/
def value? (b : Books) (p : Place) : Option Scalar :=
  (b.sheet? p.book p.sheet).map (·.value p.row p.col)

def modifyBook (b : Books) (id : String) (f : Workbook → Workbook) : Books := ⟨b.byId.modify id f⟩

def modifySheet (b : Books) (book sheet : String) (f : Sheet → Sheet) : Books :=
  b.modifyBook book (·.modifySheet sheet f)

/-- Rows and columns of a sheet, or the limits if there is no such sheet. -/
def bounds (b : Books) (book sheet : String) : Nat × Nat :=
  match b.sheet? book sheet with
  | some s => (s.rowCount, s.colCount)
  | none => (maxRows, maxCols)

/-- The names of all workbooks and sheets. -/
def nameTable (b : Books) : NameTable :=
  b.toList.foldl (fun t book =>
    book.sheets.foldl (fun t s => t.insert book.id s.name s.id) (t.insertBook book.name book.id))
    NameTable.empty

end Books

end Spreadsheet
