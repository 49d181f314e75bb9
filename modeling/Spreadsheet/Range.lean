import Spreadsheet.Address

/-!
Rectangular ranges of cells, from a top left to a bottom right corner. `Range.corners` brings any two
corners into that order, each row and column taking its `$` mark along. A range over every row of a sheet
is a whole-column range, one over every column a whole-row range; `clamp` cuts those two to the rows and
columns a sheet has.
-/

namespace Spreadsheet

open Text

structure Range where
  start : Address
  stop : Address
deriving DecidableEq, Inhabited

namespace Range

def corners (a b : Address) : Range :=
  let (top, bottom) := if a.row ≤ b.row then (a, b) else (b, a)
  let (left, right) := if a.col ≤ b.col then (a, b) else (b, a)
  { start := ⟨top.row, left.col, top.rowFixed, left.colFixed⟩
    stop := ⟨bottom.row, right.col, bottom.rowFixed, right.colFixed⟩ }

/-- The range between two unmarked corners. -/
def between (row₁ col₁ row₂ col₂ : Nat) : Range :=
  corners { row := row₁, col := col₁ } { row := row₂, col := col₂ }

def single (a : Address) : Range := ⟨a, a⟩

def cell (row col : Nat) : Range := between row col row col

def wholeColumns (first last : Nat) : Range := between 0 first (maxRows - 1) last

def wholeRows (first last : Nat) : Range := between first 0 last (maxCols - 1)

/-- The parts before and after the first colon. -/
def splitColon? (cs : List Char) : Option (List Char × List Char) :=
  match cs.dropWhile (· != ':') with
  | [] => none
  | _ :: rest => some (cs.takeWhile (· != ':'), rest)

/-- Reads `A1:B10` or a single address. -/
def parse (s : String) : Except AddressError Range := do
  match splitColon? (trimChars s.toList) with
  | some (a, b) => return corners (← Address.parseChars a) (← Address.parseChars b)
  | none => return single (← Address.parse s)

def isWholeColumns (r : Range) : Bool := r.start.row == 0 && r.stop.row == maxRows - 1

def isWholeRows (r : Range) : Bool := r.start.col == 0 && r.stop.col == maxCols - 1

def isSingle (r : Range) : Bool := r.start.samePosition r.stop

def contains (r : Range) (row col : Nat) : Bool :=
  r.start.row ≤ row && row ≤ r.stop.row && r.start.col ≤ col && col ≤ r.stop.col

def rowCount (r : Range) : Nat := r.stop.row - r.start.row + 1

def colCount (r : Range) : Nat := r.stop.col - r.start.col + 1

def cellCount (r : Range) : Nat := r.rowCount * r.colCount

def overlaps (r s : Range) : Bool :=
  r.start.row ≤ s.stop.row && s.start.row ≤ r.stop.row && r.start.col ≤ s.stop.col &&
    s.start.col ≤ r.stop.col

/-- The block two ranges share, without marks. -/
def intersect? (r s : Range) : Option Range :=
  if r.overlaps s then
    some (between (max r.start.row s.start.row) (max r.start.col s.start.col)
      (min r.stop.row s.stop.row) (min r.stop.col s.stop.col))
  else
    none

/-- The smallest range over both, without marks. -/
def bounding (r s : Range) : Range :=
  between (min r.start.row s.start.row) (min r.start.col s.start.col)
    (max r.stop.row s.stop.row) (max r.stop.col s.stop.col)

/-- Whole columns end at the last of `rows`, whole rows at the last of `cols`; other ranges stay. -/
def clamp (r : Range) (rows cols : Nat) : Range :=
  let lastRow := if r.isWholeColumns then max rows 1 - 1 else r.stop.row
  let lastCol := if r.isWholeRows then max cols 1 - 1 else r.stop.col
  { r with stop := { r.stop with row := lastRow, col := lastCol } }

/-- The positions of the range, row by row. -/
def cells (r : Range) : List (Nat × Nat) :=
  (List.range' r.start.row (r.stop.row + 1 - r.start.row)).flatMap fun row =>
    (List.range' r.start.col (r.stop.col + 1 - r.start.col)).map fun col => (row, col)

def chars (r : Range) : List Char :=
  if r.start = r.stop then r.start.chars else r.start.chars ++ ':' :: r.stop.chars

/-- `A1:B2`, or one address for a range of one cell. -/
def text (r : Range) : String := String.ofList r.chars

/-- The corners are in order. -/
def Normal (r : Range) : Prop := r.start.row ≤ r.stop.row ∧ r.start.col ≤ r.stop.col

instance (r : Range) : Decidable r.Normal := inferInstanceAs (Decidable (_ ∧ _))

instance : Membership (Nat × Nat) Range := ⟨fun r p => r.contains p.1 p.2 = true⟩

instance (p : Nat × Nat) (r : Range) : Decidable (p ∈ r) :=
  inferInstanceAs (Decidable (r.contains p.1 p.2 = true))

theorem corners_normal (a b : Address) : (corners a b).Normal := by
  simp only [corners, Normal]
  constructor <;> split <;> grind

end Range

end Spreadsheet
