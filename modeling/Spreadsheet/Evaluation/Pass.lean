import Spreadsheet.Dependency.Index

/-!
What a calculation has learned so far: results, the cells still to be calculated, and where arrays have
spilled. An array of more than one item spills into the cells below and to the right of its anchor; if
one of them holds something, has a formula or belongs to another array, or if the sheet ends before, the
anchor shows `#SPILL!` and nothing spills.
-/

namespace Spreadsheet

open Std Dependency

structure Pass where
  /-- Arrays are kept whole at their anchors. -/
  results : PlaceMap Value := ∅
  spilled : PlaceMap Value := ∅
  /-- The range that each anchor has spilled into. -/
  anchors : PlaceMap Range := ∅
  /-- Anchors that spilled in this pass, or spill no longer. -/
  changedAnchors : PlaceSet := ∅
  dirty : PlaceSet := ∅
  /-- Cells on cycles. -/
  cycles : PlaceSet := ∅
  spillArrays : Bool := true

namespace Pass

/-- The place in a row and a column of the sheet of another one. -/
def beside (anchor : Place) (position : Nat × Nat) : Place :=
  { anchor with row := position.1, col := position.2 }

/-- The places on the sheet of an anchor that a range covers. -/
def covered (anchor : Place) (r : Range) : List Place := r.cells.map (beside anchor)

/-- Takes over an array that spilled in an earlier pass. -/
def addSpill (s : Pass) (anchor : Place) (r : Range) (values : List (Position × Scalar)) : Pass :=
  let inside := values.filter fun (p, _) => r.contains p.row p.col
  { s with
    anchors := s.anchors.insert anchor r
    spilled := inside.foldl (fun m (p, v) => m.insert (beside anchor (p.row, p.col)) (.ofScalar v))
      s.spilled }

def markDirty (s : Pass) (cells : List Place) : Pass :=
  { s with dirty := cells.foldl (fun set p => set.insert p) s.dirty }

/-- Gives a cell the result `#CYCLE!` for the whole pass. -/
def markCycle (s : Pass) (p : Place) : Pass :=
  { s with
    dirty := s.dirty.erase p
    results := s.results.insert p (.error .cycle)
    cycles := s.cycles.insert p }

/-- Forgets the result of a cell that is not on a cycle, so that it is calculated again. -/
def invalidate (s : Pass) (p : Place) : Pass :=
  if s.cycles.contains p then s
  else { s with results := s.results.erase p, dirty := s.dirty.insert p }

/-- The range that an array at an anchor covers, if it ends on the sheet. -/
def target? (anchor : Place) (rows cols : Nat) : Option Range :=
  let lastRow := anchor.row + rows - 1
  let lastCol := anchor.col + cols - 1
  if lastRow < maxRows ∧ lastCol < maxCols then
    some (Range.between anchor.row anchor.col lastRow lastCol)
  else none

/-- Does another array cover the place? -/
def coveredByOther (s : Pass) (anchor p : Place) : Bool :=
  s.anchors.toList.any fun (other, r) =>
    other != anchor && other.book == p.book && other.sheet == p.sheet && r.contains p.row p.col

/-- Must the place stay as it is when the array at the anchor spills? -/
def isObstacle (s : Pass) (books : Books) (index : Index) (anchor p : Place) : Bool :=
  p != anchor && (((books.cell? p).map (!·.isEmpty)).getD false || index.cells.contains p ||
    s.coveredByOther anchor p)

/-- The range that an array can spill into. -/
def spillRange? (s : Pass) (books : Books) (index : Index) (anchor : Place) (g : Grid Value) :
    Option Range := do
  let r ← target? anchor g.rows g.cols
  if (covered anchor r).any (s.isObstacle books index anchor) then none else some r

/-- Takes back what an anchor has spilled. -/
def withdraw (s : Pass) (anchor : Place) : Pass :=
  match s.anchors[anchor]? with
  | none => s
  | some r =>
    { s with
      anchors := s.anchors.erase anchor
      spilled := (covered anchor r).foldl (fun m p => m.erase p) s.spilled
      changedAnchors := s.changedAnchors.insert anchor }

/-- Spills an array into a range. -/
def place (s : Pass) (anchor : Place) (g : Grid Value) (r : Range) : Pass :=
  { s with
    anchors := s.anchors.insert anchor r
    spilled := ((covered anchor r).zip g.items).foldl (fun m (p, v) => m.insert p v) s.spilled
    changedAnchors := s.changedAnchors.insert anchor }

/-- Records a result, which ends the wait of the cell. -/
def record (s : Pass) (p : Place) (v : Value) : Pass :=
  { s with dirty := s.dirty.erase p, results := s.results.insert p v }

/-- Stores the result of a formula and spills it if it is an array of more than one item. -/
def store (s : Pass) (books : Books) (index : Index) (anchor : Place) (v : Value) : Pass :=
  let s := s.withdraw anchor
  match v with
  | .array g =>
    if s.spillArrays ∧ 1 < g.size then
      match s.spillRange? books index anchor g with
      | some r => (s.place anchor g r).record anchor v
      | none => s.record anchor (.error .spill)
    else s.record anchor v
  | v => s.record anchor v

/-- An anchor still to be calculated whose array covered the place so far. -/
def dirtyAnchorOver? (s : Pass) (p : Place) : Option Place :=
  (s.anchors.toList.find? fun (anchor, r) =>
    anchor.book == p.book && anchor.sheet == p.sheet && r.contains p.row p.col &&
      s.dirty.contains anchor).map (·.1)

end Pass

end Spreadsheet
