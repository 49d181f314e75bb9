import Spreadsheet.Text.Case
import Std.Data.ExtTreeMap

/-!
The tables by which the names of workbooks and sheets in formulas are bound to ids. Names are compared in
upper case.
-/

namespace Spreadsheet

open Std Text

structure NameTable where
  /-- Sheet ids by workbook id and upper-case sheet name. -/
  sheets : ExtTreeMap String (ExtTreeMap String String) := ∅
  /-- Workbook ids by upper-case workbook name. -/
  books : ExtTreeMap String String := ∅

namespace NameTable

def empty : NameTable := {}

/-- Enters a sheet under a key that is upper-case already. -/
def insertKey (t : NameTable) (book key id : String) : NameTable :=
  { t with sheets := t.sheets.insert book ((t.sheets[book]?.getD ∅).insert key id) }

def insert (t : NameTable) (book name id : String) : NameTable := t.insertKey book (upper name) id

def insertBook (t : NameTable) (name id : String) : NameTable :=
  { t with books := t.books.insert (upper name) id }

def sheetId? (t : NameTable) (book name : String) : Option String :=
  t.sheets[book]?.bind (·[upper name]?)

/-- The id of a workbook by its name, or by its id if it has entries of its own. -/
def bookId? (t : NameTable) (name : String) : Option String :=
  t.books[upper name]?.or (if t.sheets.contains name then some name else none)

def erase (t : NameTable) (book name : String) : NameTable :=
  match t.sheets[book]? with
  | some names => { t with sheets := t.sheets.insert book (names.erase (upper name)) }
  | none => t

/-- The entries of both tables; those of the second count where they differ. -/
def extend (t u : NameTable) : NameTable :=
  let sheets := u.sheets.foldl (fun acc book names =>
    acc.insert book (names.foldl (fun m key id => m.insert key id) (acc[book]?.getD ∅))) t.sheets
  { sheets, books := u.books.foldl (fun m key id => m.insert key id) t.books }

end NameTable

end Spreadsheet
