import Spreadsheet.Dataset.Basic
import Spreadsheet.Dependency.Index

/-!
The state of an engine between calculations, made from a dataset. Changed definitions are written into the
workbooks, formulas from outside come in place of stored ones, shared formulas get texts of their own, and
formulas without a text are dropped.
-/

namespace Spreadsheet

open Std Text Dependency Formula

structure Config where
  /-- Every cell formula with a text of its own. -/
  formulas : PlaceMap StoredFormula := ∅
  others : ItemMap OtherFormula := ∅
  /-- Where arrays have spilled, by anchor. -/
  arrayRanges : PlaceMap Range := ∅
  arrayValues : PlaceMap Scalar := ∅
  formats : PlaceMap String := ∅
  features : List Feature := []
  books : Books := {}
  names : NameTable := {}
  changes : Changes := {}
  /-- The workbooks that the changes are about, in order. -/
  dirtyBooks : List String := []

namespace Config

/-- Writes a changed definition into a workbook, unless its text is blank or its name is refused. -/
def define (b : Workbook) (name text : String) : Workbook :=
  if text.toList.all isBlank then b
  else match b.define { name, refersTo := text } with
    | .ok b => b
    | .error _ => b

def defineAll (books : Books) (names : PerSheet String) : Books :=
  names.foldl (fun books (book, entries) =>
    entries.foldl (fun books (name, text) => books.modifyBook book (define · name text)) books) books

/-- The formulas of one sheet by workbook and sheet. -/
abbrev FormulaTable := ExtTreeMap String (ExtTreeMap String (Matrix StoredFormula))

namespace FormulaTable

def sheet (t : FormulaTable) (book sheet : String) : Matrix StoredFormula :=
  (t[book]?.bind (·[sheet]?)).getD Matrix.empty

def insert (t : FormulaTable) (book sheet : String) (m : Matrix StoredFormula) : FormulaTable :=
  ExtTreeMap.insert t book ((t[book]?.getD ∅).insert sheet m)

/-- The formulas stored in workbooks. -/
def ofBooks (b : Books) : FormulaTable :=
  b.toList.foldl (fun t book => book.sheets.foldl (fun t s =>
    match s.formulas with
    | [] => t
    | formulas => insert t book.id s.id (Matrix.ofList formulas)) t) ∅

/-- Puts formulas from outside over those that are there. -/
def extend (t : FormulaTable) (formulas : PerSheet (List (Position × StoredFormula))) : FormulaTable :=
  formulas.foldl (fun t (book, sheets) => sheets.foldl (fun t (id, cells) =>
    insert t book id (cells.foldl (fun m (p, f) => m.insert p.row p.col f) (sheet t book id))) t) t

/-- Every formula with its own text. -/
def expanded (t : FormulaTable) : List (Place × StoredFormula) :=
  t.toList.flatMap fun (book, sheets) => sheets.toList.flatMap fun (id, m) =>
    ((expandShared m.toList).filter (·.2.hasText)).map fun (p, f) => (⟨book, id, p.row, p.col⟩, f)

end FormulaTable

/-- What a dataset says to have changed. -/
def changesOf (d : Dataset) : Changes where
  ranges := d.dirtyRanges
  names := (d.dirtyNames.flatMap fun (book, names) =>
    names.map fun (name, _) => (book, upper name)).mergeSort pairLE
  sheetNames := (d.dirtySheetNames.flatMap fun (book, names) =>
    names.map fun (_, name) => (book, upper name)).mergeSort pairLE
  features := flagged d.dirtyFeatures
  others := flagged d.dirtyOthers
  excluded := (PerSheet.places d.excluded).foldl
    (fun set (p, b) => if b then set.insert p else set) ∅
  force := d.force
where
  pairLE (a b : String × String) : Bool := ((compare a.1 b.1).then (compare a.2 b.2)).isLE
  flagged (t : PerSheet (List (String × Bool))) : ItemSet :=
    t.keyed.foldl (fun set (k, b) => if b then set.insert k else set) ∅

/-- The workbooks that a dataset has changes for. -/
def dirtyBooksOf (d : Dataset) (books : Books) (formulas : FormulaTable) : List String :=
  sorted ((if d.force then books.toList.map (·.id) ++ formulas.keys else []) ++
    d.dirtyRanges.map (·.book) ++ d.dirtySheetNames.books ++ d.dirtyNames.books ++
    d.dirtyFeatures.books ++ d.dirtyOthers.books)

def load (d : Dataset) : Config :=
  let books := defineAll d.books d.dirtyNames
  let formulas := (FormulaTable.ofBooks books).extend d.formulas
  { formulas := formulas.expanded.foldl (fun m (p, f) => m.insert p f) ∅
    others := d.others.keyed.foldl (fun m (k, f) => m.insert k f) ∅
    arrayRanges := d.arrayRanges.places.foldl (fun m (p, r) => m.insert p r) ∅
    arrayValues := d.arrayValues.places.foldl (fun m (p, v) => m.insert p v) ∅
    formats := d.formats.places.foldl (fun m (p, s) => m.insert p s) ∅
    features := d.features
    books
    names := (d.names.getD {}).extend books.nameTable
    changes := changesOf d
    dirtyBooks := dirtyBooksOf d books formulas }

/-- Where the result of a cell formula lands. -/
def output (c : Config) (p : Place) : Region :=
  match c.arrayRanges[p]? with
  | some r => ⟨p.book, p.sheet, r⟩
  | none => p.region

/-- Indexes all formulas. -/
def index (c : Config) (r : Registry) : Index :=
  Index.build ⟨r, c.books, c.names⟩
    (c.formulas.toList.map fun (p, f) => (p, f.text, c.output p))
    (c.others.toList.map fun (k, f) =>
      (k, f.text, Region.cell k.book k.sheet f.anchor.row f.anchor.col))

/-- The values that arrays have spilled into a range. -/
def arrayValuesIn (c : Config) (r : Region) : List (Position × Scalar) :=
  (c.arrayValues.toList.filter fun (p, _) => r.contains p).map fun (p, v) => (p.position, v)

end Config

end Spreadsheet
