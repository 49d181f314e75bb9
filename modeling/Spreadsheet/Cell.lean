import Spreadsheet.ErrorValue
import Spreadsheet.Number.Text
import Spreadsheet.Text.Blank

/-!
What a cell stores: a plain value, a formula, or a formula with the value last calculated for it.
-/

namespace Spreadsheet

open Text

/-- A plain value as cells store it. -/
inductive Scalar
  | empty
  | boolean (b : Bool)
  | number (x : Float)
  | text (s : String)
  | error (e : ErrorValue)
deriving Inhabited

namespace Scalar

def isEmpty : Scalar → Bool
  | empty => true
  | _ => false

def isError : Scalar → Bool
  | error _ => true
  | _ => false

def number? : Scalar → Option Float
  | number x => some x
  | _ => none

def string? : Scalar → Option String
  | text s => some s
  | _ => none

def kindName : Scalar → String
  | empty => "empty"
  | boolean _ => "boolean"
  | number _ => "number"
  | text _ => "string"
  | error _ => "error"

/-- How a listing of cells shows the value. -/
def display : Scalar → String
  | empty => ""
  | boolean b => if b then "TRUE" else "FALSE"
  | number x => Number.plain x
  | text s => s
  | error e => e.text

end Scalar

/-- A stored formula. Cells that share a formula carry one `sharedId`; those without a text take the text
of the one that has it, moved by the given columns and rows. -/
structure StoredFormula where
  text : String := ""
  colOffset : Option Int := none
  rowOffset : Option Int := none
  sharedId : Option String := none
deriving DecidableEq, Inhabited

def StoredFormula.hasText (f : StoredFormula) : Bool := f.text.toList.any (!isBlank ·)

structure Cell where
  value : Option Scalar := none
  formula : Option StoredFormula := none
deriving Inhabited

namespace Cell

def ofValue (v : Scalar) : Cell := { value := some v }

/-- The value a reader of the cell sees. -/
def read (c : Cell) : Scalar := c.value.getD .empty

def isFormula (c : Cell) : Bool := c.formula.isSome

def isEmpty (c : Cell) : Bool := c.formula.isNone && c.read.isEmpty

end Cell

end Spreadsheet
