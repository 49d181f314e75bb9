import Spreadsheet.Books
import Spreadsheet.Value

/-!
What a calculation has produced, and how it can be written into workbooks. Values that arrays have spilled
are reported but not written into cells, where they would be in the way of a later array.
-/

namespace Spreadsheet

open Std

structure Stats where
  /-- Formulas in cells. -/
  formulas : Nat := 0
  calculated : Nat := 0
  /-- Cells on cycles. -/
  circular : Nat := 0
  volatile : Nat := 0
  /-- Results that are errors. -/
  errors : Nat := 0
deriving DecidableEq

structure Report where
  /-- The results of the formulas that were calculated; an array leaves its first item. -/
  values : PlaceMap Scalar := ∅
  /-- Where arrays have spilled, by anchor. -/
  arrayRanges : PlaceMap Range := ∅
  arrayValues : PlaceMap Scalar := ∅
  /-- Anchors that spill no longer. -/
  clearedArrays : List Place := []
  others : ItemMap Value := ∅
  /-- Number formats for results that had none. -/
  formats : PlaceMap String := ∅
  /-- Features of the host whose inputs have changed. -/
  features : List ItemKey := []
  stats : Stats := {}

/-- Writes the results into the cells of their formulas. -/
def Report.applyTo (r : Report) (books : Books) : Books :=
  r.values.foldl (fun books p v => books.modifySheet p.book p.sheet (·.setCalculated p.row p.col v)) books

/-- How a calculation ends. -/
inductive Outcome
  | completed (r : Report)
  /-- A newer calculation has begun, and nothing is reported. -/
  | superseded (generation : Nat)

end Spreadsheet
