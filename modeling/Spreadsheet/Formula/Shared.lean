import Spreadsheet.Cell
import Spreadsheet.Formula.Shift
import Spreadsheet.Matrix

/-!
Shared formulas: every cell of a sheet gets a formula text of its own. A cell without one takes the text
of the first cell with its shared id that has one, moved by the stored offset, or by the distance between
the two cells where no offset is stored. Without such a cell the text is empty.
-/

namespace Spreadsheet.Formula

/-- The first formula with text for a shared id. -/
def origin? (cells : List (Position × StoredFormula)) (id : String) : Option (Position × StoredFormula) :=
  cells.find? fun (_, f) => f.sharedId == some id && f.hasText

def ownText (cells : List (Position × StoredFormula)) (p : Position) (f : StoredFormula) : String :=
  if f.hasText then f.text
  else match f.sharedId.bind (origin? cells) with
    | some (q, g) =>
      shift g.text (f.rowOffset.getD ((p.row : Int) - q.row)) (f.colOffset.getD ((p.col : Int) - q.col))
    | none => ""

/-- Gives every formula of a sheet its own text. -/
def expandShared (cells : List (Position × StoredFormula)) : List (Position × StoredFormula) :=
  cells.map fun (p, f) => (p, { f with text := ownText cells p f })

end Spreadsheet.Formula
