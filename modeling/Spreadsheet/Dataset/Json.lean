import Spreadsheet.Dataset.Basic
import Spreadsheet.Json.Decode

/-!
Datasets as JSON. A sheet keeps its cells by row and column, a stored value is a pair of its kind `t` and
its content `v`, and all fields of a dataset may be left out.
-/

namespace Spreadsheet

open Std Json Decoder Dependency

namespace ErrorValue

def jsonNames : List (String × ErrorValue) :=
  [("Null", null), ("Div0", divZero), ("Value", value), ("Ref", ref), ("Name", name), ("Num", num),
   ("Na", notAvailable), ("Spill", spill), ("Calc", calculation), ("Cycle", cycle)]

def jsonName (e : ErrorValue) : String :=
  ((jsonNames.find? (·.2 == e)).map (·.1)).getD ""

theorem lookup_jsonName (e : ErrorValue) : jsonNames.lookup e.jsonName = some e := by
  cases e <;> decide

end ErrorValue

namespace Scalar

/-- The kinds of values and how their content is read; `isNothing` tells what may stand under the name of an
error. -/
def kinds (isNothing : Json → Bool) : List (String × (Option Json → Option Scalar)) :=
  [("Empty", fun content => if (content.getD .null).isNull then some empty else none),
   ("Boolean", fun content => (content.bind bool).map boolean),
   ("Number", fun content => (content.bind Decoder.number).map number),
   ("String", fun content => (content.bind Decoder.string).map text),
   ("Error", fun content => (content.bind (oneOf ErrorValue.jsonNames isNothing)).map error)]

/-- A kind and its content, as an object or as an array of both. Content that comes first is held back until
its kind is known, and then an empty object counts as nothing too. -/
def ofJson : Decoder Scalar
  | .array [kind, content] => do
    let read ← (kinds isNull).lookup (← Decoder.string kind)
    read (some content)
  | .array _ => none
  | j => do
    let fields ← record ["t", "v"] j
    let contentFirst := fields.head?.map (·.1) == some "v"
    let read ← field fields "t" (oneOf (kinds (if contentFirst then isNullOrEmptyObject else isNull)))
    read (fields.lookup "v")

def toJson : Scalar → Json
  | empty => .object [("t", .string "Empty")]
  | boolean b => .object [("t", .string "Boolean"), ("v", .bool b)]
  | number x => .object [("t", .string "Number"), ("v", .float x)]
  | text s => .object [("t", .string "String"), ("v", .string s)]
  | error e => .object [("t", .string "Error"), ("v", .string e.jsonName)]

end Scalar

namespace Dataset

/-- Limits of the numbers that count rows and columns. -/
def rowBound : Nat := Nat.pow 2 32
def colBound : Nat := Nat.pow 2 16

def address : Decoder Address := fun j => do
  let fields ← record ["row", "col", "row_absolute", "col_absolute"] j
  return {
    row := ← field fields "row" (natBelow rowBound)
    col := ← field fields "col" (natBelow colBound)
    rowFixed := ← fieldOr fields "row_absolute" false bool
    colFixed := ← fieldOr fields "col_absolute" false bool }

def range : Decoder Range := fun j => do
  let fields ← record ["start", "end"] j
  return Range.corners (← field fields "start" address) (← field fields "end" address)

def region : Decoder Region := fun j => do
  let fields ← record ["unit_id", "sheet_id", "range"] j
  return {
    book := ← field fields "unit_id" string
    sheet := ← field fields "sheet_id" string
    range := ← field fields "range" range }

/-- Something for each of some cells, by row and column. -/
def cells {α : Type} (d : Decoder α) : Decoder (List (Position × α)) := fun j => do
  let rows ← numberTable rowBound (numberTable colBound d) j
  return rows.flatMap fun (row, cols) => cols.map fun (col, a) => (⟨row, col⟩, a)

def storedFormula : Decoder StoredFormula := fun j => do
  let fields ← record ["f", "x", "y", "si"] j
  return {
    text := ← fieldOr fields "f" "" string
    colOffset := ← fieldOr fields "x" none (nullable int64)
    rowOffset := ← fieldOr fields "y" none (nullable int64)
    sharedId := ← fieldOr fields "si" none (nullable string) }

def cell : Decoder Cell := fun j => do
  let fields ← record ["value", "formula"] j
  return {
    value := ← fieldOr fields "value" none (nullable Scalar.ofJson)
    formula := ← fieldOr fields "formula" none (nullable storedFormula) }

/-- What is known about a row or column; `size` is what its height or width is called. -/
def lineInfo (size : String) : Decoder LineInfo := fun j => do
  let fields ← record [size, "hidden"] j
  return {
    size := ← fieldOr fields size none (nullable number)
    hidden := ← field fields "hidden" bool }

def lines (bound : Nat) (size : String) : Decoder (ExtTreeMap Nat LineInfo) := fun j => do
  return (← numberTable bound (lineInfo size) j).foldl (fun m (i, info) => m.insert i info) ∅

def sheet : Decoder Sheet := fun j => do
  let fields ← record
    ["id", "name", "cells", "row_count", "column_count", "row_data", "column_data"] j
  return {
    id := ← field fields "id" string
    name := ← field fields "name" string
    cells := Matrix.ofList (← fieldOr fields "cells" [] (cells cell))
    rowCount := ← field fields "row_count" (natBelow rowBound)
    colCount := ← field fields "column_count" (natBelow colBound)
    rows := ← fieldOr fields "row_data" ∅ (lines rowBound "height")
    cols := ← fieldOr fields "column_data" ∅ (lines colBound "width") }

def definedName : Decoder DefinedName := fun j => do
  let fields ← record ["name", "refers_to", "scope"] j
  return {
    name := ← field fields "name" string
    refersTo := ← field fields "refers_to" string
    scope := ← fieldOr fields "scope" none (nullable string) }

def workbook : Decoder Workbook := fun j => do
  let fields ← record ["id", "name", "sheets", "defined_names"] j
  return {
    id := ← field fields "id" string
    name := ← fieldOr fields "name" "" string
    sheets := ← fieldOr fields "sheets" [] (list sheet)
    names := ← fieldOr fields "defined_names" [] (list definedName) }

/-- Workbooks by the keys they are given under. -/
def workbooks : Decoder Books := fun j => do
  return ⟨(← table workbook j).foldl (fun m (id, b) => m.insert id b) ∅⟩

def nameTable : Decoder NameTable := fun j => do
  let fields ← record ["sheets", "units"] j
  let sheets ← fieldOr fields "sheets" [] (table (table string))
  let books ← fieldOr fields "units" [] (table string)
  return {
    sheets := sheets.foldl (fun m (book, names) =>
      m.insert book (names.foldl (fun m (key, id) => m.insert key id) ∅)) ∅
    books := books.foldl (fun m (key, id) => m.insert key id) ∅ }

def otherFormula : Decoder OtherFormula := fun j => do
  let fields ← record ["formula", "ranges"] j
  return {
    text := ← field fields "formula" string
    ranges := ← fieldOr fields "ranges" [] (list range) }

def feature : Decoder Feature := fun j => do
  let fields ← record ["unit_id", "sheet_id", "feature_id", "dependencies", "outputs"] j
  return {
    key :=
      { book := ← field fields "unit_id" string
        sheet := ← field fields "sheet_id" string
        id := ← field fields "feature_id" string }
    dependencies := ← fieldOr fields "dependencies" [] (list region)
    outputs := ← fieldOr fields "outputs" [] (list region) }

def perSheet {α : Type} (d : Decoder α) : Decoder (PerSheet α) := table (table d)

def fieldNames : List String :=
  ["formula_data", "other_formula_data", "array_formula_range", "array_formula_cell_data",
   "force_calculate", "dirty_ranges", "dirty_name_map", "dirty_defined_name_map",
   "dirty_unit_feature_map", "dirty_unit_other_formula_map", "feature_dependencies", "numfmt_item_map",
   "excluded_cell", "all_unit_data", "unit_sheet_name_map"]

def ofJson : Decoder Dataset := fun j => do
  let fields ← record fieldNames j
  return {
    formulas := ← fieldOr fields "formula_data" [] (perSheet (cells storedFormula))
    others := ← fieldOr fields "other_formula_data" [] (perSheet (table otherFormula))
    arrayRanges := ← fieldOr fields "array_formula_range" [] (perSheet (cells range))
    arrayValues := ← fieldOr fields "array_formula_cell_data" [] (perSheet (cells Scalar.ofJson))
    force := ← fieldOr fields "force_calculate" false bool
    dirtyRanges := ← fieldOr fields "dirty_ranges" [] (list region)
    dirtySheetNames := ← fieldOr fields "dirty_name_map" [] (perSheet string)
    dirtyNames := ← fieldOr fields "dirty_defined_name_map" [] (perSheet string)
    dirtyFeatures := ← fieldOr fields "dirty_unit_feature_map" [] (perSheet (table bool))
    dirtyOthers := ← fieldOr fields "dirty_unit_other_formula_map" [] (perSheet (table bool))
    features := ← fieldOr fields "feature_dependencies" [] (list feature)
    formats := ← fieldOr fields "numfmt_item_map" [] (perSheet (cells string))
    excluded := (← fieldOr fields "excluded_cell" none
      (nullable (perSheet (cells bool)))).getD []
    books := (← fieldOr fields "all_unit_data" none (nullable workbooks)).getD {}
    names := ← fieldOr fields "unit_sheet_name_map" none (nullable nameTable) }

end Dataset

end Spreadsheet
