import Spreadsheet.Sheet
import Spreadsheet.Text.Alphabetic
import Spreadsheet.Text.Numeric

/-!
Workbooks: sheets in order, with names that differ in more than the case of `a`-`z`, and defined names,
which stand for a formula in the whole workbook or on one sheet only.
-/

namespace Spreadsheet

open Text

/-- Why a workbook or a set of workbooks refuses a change. -/
inductive BookError
  | duplicateSheetName (name : String)
  | duplicateSheetId (id : String)
  | invalidName (name : String)
  | sheetNotFound (book sheet : String)
deriving DecidableEq

def BookError.message : BookError → String
  | duplicateSheetName name => "Sheet name already exists: " ++ name
  | duplicateSheetId id => "duplicate sheet id: " ++ id
  | invalidName name => "Invalid defined name: " ++ name
  | sheetNotFound book sheet => "Sheet not found: " ++ book ++ "/" ++ sheet

/-- A name for a formula; without a `scope` it holds in the whole workbook. -/
structure DefinedName where
  name : String
  refersTo : String
  scope : Option String := none
deriving DecidableEq

/-- The text of the definition as a formula. -/
def DefinedName.formula (d : DefinedName) : String :=
  let cs := trimChars d.refersTo.toList
  String.ofList (if cs.head? = some '=' then cs else '=' :: cs)

/-- Names start with a letter, `_` or `\` and go on with letters, digits, `_` and `.`. -/
def isDefinable (name : String) : Bool :=
  match name.toList with
  | [] => false
  | c :: rest =>
    (isAlphabetic c || c == '_' || c == '\\') &&
      rest.all fun c => isAlphabetic c || isNumeric c || c == '_' || c == '.'

structure Workbook where
  id : String
  name : String
  sheets : List Sheet := []
  names : List DefinedName := []

namespace Workbook

def sheet? (b : Workbook) (id : String) : Option Sheet := b.sheets.find? (·.id == id)

def sheetNamed? (b : Workbook) (name : String) : Option Sheet :=
  b.sheets.find? (sameLetters ·.name name)

def addSheet (b : Workbook) (s : Sheet) : Except BookError Workbook :=
  if (b.sheetNamed? s.name).isSome then .error (.duplicateSheetName s.name)
  else if (b.sheet? s.id).isSome then .error (.duplicateSheetId s.id)
  else .ok { b with sheets := b.sheets ++ [s] }

/-- Changes the first sheet with the given id. -/
def modifySheetIn (id : String) (f : Sheet → Sheet) : List Sheet → List Sheet
  | [] => []
  | s :: rest => if s.id == id then f s :: rest else s :: modifySheetIn id f rest

def modifySheet (b : Workbook) (id : String) (f : Sheet → Sheet) : Workbook :=
  { b with sheets := modifySheetIn id f b.sheets }

/-- Adds a defined name in place of one with the same name and scope. -/
def define (b : Workbook) (d : DefinedName) : Except BookError Workbook :=
  if isDefinable d.name then
    let others := b.names.filter fun n => !(sameLetters n.name d.name && n.scope == d.scope)
    .ok { b with names := others ++ [d] }
  else .error (.invalidName d.name)

/-- What a name means on a sheet: the sheet's own definition comes before the workbook's. -/
def definition? (b : Workbook) (name : String) (sheet : Option String) : Option DefinedName :=
  let named := b.names.filter (sameLetters ·.name name)
  let own := sheet.bind fun id => named.find? (·.scope == some id)
  own.or (named.find? (·.scope == none))

end Workbook

end Spreadsheet
