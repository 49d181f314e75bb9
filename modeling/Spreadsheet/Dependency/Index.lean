import Spreadsheet.Dependency.Entry
import Spreadsheet.Formula.Shared

/-!
The index of formulas: what every formula of a set of workbooks mentions. Formulas in cells are found by
their places; others, such as conditions for a format, by an id on their sheet.
-/

namespace Spreadsheet.Dependency

open Std Formula

structure Index where
  cells : PlaceMap Entry := ∅
  others : ItemMap Entry := ∅

namespace Index

def empty : Index := {}

def cell? (i : Index) (p : Place) : Option Entry := i.cells[p]?

def other? (i : Index) (k : ItemKey) : Option Entry := i.others[k]?

/-- The number of formulas in cells. -/
def size (i : Index) : Nat := i.cells.size

def volatileCount (i : Index) : Nat := i.cells.values.countP (·.volatile)

/-- Indexes formulas, each given with the region where its result lands. -/
def build (s : Surroundings) (cells : List (Place × String × Region))
    (others : List (ItemKey × String × Region)) : Index where
  cells := cells.foldl (fun m (p, text, output) =>
    m.insert p (Entry.ofText s p.book p.sheet text output)) ∅
  others := others.foldl (fun m (k, text, output) =>
    m.insert k (Entry.ofText s k.book k.sheet text output)) ∅

/-- The formulas stored on a sheet that have a text, or take one from a formula they share. -/
def storedFormulas (book : Workbook) (s : Sheet) : List (Place × StoredFormula) :=
  ((expandShared s.formulas).filter (·.2.hasText)).map fun (p, f) => (⟨book.id, s.id, p.row, p.col⟩, f)

/-- Indexes the formulas stored in workbooks. -/
def ofBooks (r : Registry) (books : Books) : Index :=
  let formulas := books.toList.flatMap fun book => book.sheets.flatMap (storedFormulas book)
  build ⟨r, books, books.nameTable⟩ (formulas.map fun (p, f) => (p, f.text, p.region)) []

end Index

end Spreadsheet.Dependency
