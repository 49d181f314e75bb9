import Spreadsheet.Range
import Std.Data.ExtTreeMap
import Std.Data.ExtTreeSet

/-!
Cells and ranges of named sheets. A `Position` is a cell of an unnamed sheet, a `Place` a cell of a sheet
of a workbook and a `Region` a range of one. Positions and places are ordered by workbook, sheet, row and
column; maps keyed by them list their entries in that order.
-/

namespace Spreadsheet

open Std

structure Position where
  row : Nat
  col : Nat
deriving DecidableEq, Inhabited

namespace Position

abbrev order : Position → Position → Ordering := compareLex (compareOn row) (compareOn col)

instance : Ord Position := ⟨order⟩

instance : TransOrd Position := inferInstanceAs (TransCmp order)

instance : LawfulEqOrd Position where
  eq_of_compare {a b} h := by
    have h : order a b = .eq := h
    simp only [order, compareLex_eq_eq, compareOn, Std.compare_eq_iff_eq] at h
    cases a; cases b; simp_all

end Position

structure Place where
  book : String
  sheet : String
  row : Nat
  col : Nat
deriving DecidableEq, Inhabited

namespace Place

abbrev order : Place → Place → Ordering :=
  compareLex (compareOn book) (compareLex (compareOn sheet) (compareLex (compareOn row) (compareOn col)))

instance : Ord Place := ⟨order⟩

instance : TransOrd Place := inferInstanceAs (TransCmp order)

instance : LawfulEqOrd Place where
  eq_of_compare {a b} h := by
    have h : order a b = .eq := h
    simp only [order, compareLex_eq_eq, compareOn, Std.compare_eq_iff_eq] at h
    cases a; cases b; simp_all

def position (p : Place) : Position := ⟨p.row, p.col⟩

/-- `[book]sheet!B3`. -/
def text (p : Place) : String :=
  "[" ++ p.book ++ "]" ++ p.sheet ++ "!" ++ ({ row := p.row, col := p.col } : Address).text

end Place

structure Region where
  book : String
  sheet : String
  range : Range
deriving DecidableEq, Inhabited

namespace Region

def cell (book sheet : String) (row col : Nat) : Region := ⟨book, sheet, Range.cell row col⟩

def sameSheet (r s : Region) : Bool := r.book == s.book && r.sheet == s.sheet

def overlaps (r s : Region) : Bool := r.sameSheet s && r.range.overlaps s.range

def contains (r : Region) (p : Place) : Bool :=
  r.book == p.book && r.sheet == p.sheet && r.range.contains p.row p.col

def text (r : Region) : String := "[" ++ r.book ++ "]" ++ r.sheet ++ "!" ++ r.range.text

/-- The places of the region, row by row. -/
def places (r : Region) : List Place :=
  r.range.cells.map fun (row, col) => ⟨r.book, r.sheet, row, col⟩

end Region

/-- The region of one cell. -/
def Place.region (p : Place) : Region := Region.cell p.book p.sheet p.row p.col

/-- What lies on a sheet under an id of its own: a formula outside the cells, or a feature of the host. -/
structure ItemKey where
  book : String
  sheet : String
  id : String
deriving DecidableEq, Inhabited

namespace ItemKey

abbrev order : ItemKey → ItemKey → Ordering :=
  compareLex (compareOn book) (compareLex (compareOn sheet) (compareOn id))

instance : Ord ItemKey := ⟨order⟩

instance : TransOrd ItemKey := inferInstanceAs (TransCmp order)

instance : LawfulEqOrd ItemKey where
  eq_of_compare {a b} h := by
    have h : order a b = .eq := h
    simp only [order, compareLex_eq_eq, compareOn, Std.compare_eq_iff_eq] at h
    cases a; cases b; simp_all

/-- `book/sheet/id`. -/
def text (k : ItemKey) : String := k.book ++ "/" ++ k.sheet ++ "/" ++ k.id

end ItemKey

abbrev PlaceMap (α : Type) := ExtTreeMap Place α
abbrev PlaceSet := ExtTreeSet Place
abbrev ItemMap (α : Type) := ExtTreeMap ItemKey α
abbrev ItemSet := ExtTreeSet ItemKey

end Spreadsheet
