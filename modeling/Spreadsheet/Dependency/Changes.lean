import Spreadsheet.Place

/-!
What changed since the last calculation, and the features of the host: charts, filters and the like, which
read some ranges and produce others.
-/

namespace Spreadsheet.Dependency

structure Feature where
  key : ItemKey
  dependencies : List Region := []
  outputs : List Region := []

structure Changes where
  ranges : List Region := []
  /-- Defined names, each with its workbook and in upper case. -/
  names : List (String × String) := []
  /-- Names of sheets that came, went or were renamed, each with its workbook and in upper case. -/
  sheetNames : List (String × String) := []
  features : ItemSet := ∅
  /-- Formulas outside the cells. -/
  others : ItemSet := ∅
  /-- Cells that are never calculated. -/
  excluded : PlaceSet := ∅
  /-- Everything counts as changed. -/
  force : Bool := false
  /-- Volatile formulas count as changed. -/
  volatile : Bool := false

end Spreadsheet.Dependency
