/-!
Rectangular grids, held row by row. A grid is regular when it has as many items as its rows and columns
call for; every function here that builds a grid builds a regular one.
-/

namespace Spreadsheet

structure Grid (α : Type) where
  rows : Nat
  cols : Nat
  items : List α
deriving DecidableEq

namespace Grid

variable {α β : Type}

def Regular (g : Grid α) : Prop := g.items.length = g.rows * g.cols

/-- The grid of the given shape, if the items fill it. -/
def ofItems? (rows cols : Nat) (items : List α) : Option (Grid α) :=
  if items.length = rows * cols then some ⟨rows, cols, items⟩ else none

/-- Short rows are filled up to the longest one. -/
def ofRows (rows : List (List α)) (fill : α) : Grid α :=
  let cols := (rows.map List.length).foldl max 0
  ⟨rows.length, cols, rows.flatMap fun row => row ++ List.replicate (cols - row.length) fill⟩

def single (a : α) : Grid α := ⟨1, 1, [a]⟩

def filled (rows cols : Nat) (a : α) : Grid α := ⟨rows, cols, List.replicate (rows * cols) a⟩

/-- The grid whose item in row `i` and column `j` is `f i j`. -/
def build (rows cols : Nat) (f : Nat → Nat → α) : Grid α :=
  ⟨rows, cols, (List.range rows).flatMap fun i => (List.range cols).map (f i)⟩

def isEmpty (g : Grid α) : Bool := g.items.isEmpty

def size (g : Grid α) : Nat := g.items.length

def get? (g : Grid α) (row col : Nat) : Option α :=
  if row < g.rows ∧ col < g.cols then g.items[row * g.cols + col]? else none

def row? (g : Grid α) (row : Nat) : Option (List α) :=
  if row < g.rows then some ((g.items.drop (row * g.cols)).take g.cols) else none

def first? (g : Grid α) : Option α := g.items.head?

/-- Random access to the items: `g.lookup` prepares the table once for all positions. -/
def lookup (g : Grid α) : Nat → Nat → Option α :=
  let table := g.items.toArray
  fun row col => if row < g.rows ∧ col < g.cols then table[row * g.cols + col]? else none

theorem lookup_eq_get? (g : Grid α) (row col : Nat) : g.lookup row col = g.get? row col := by
  simp [lookup, get?]

/-- A single row or column stretches over all rows or columns. -/
def stretched (g : Grid α) : Nat → Nat → Option α :=
  let item := g.lookup
  fun row col => item (if g.rows = 1 then 0 else row) (if g.cols = 1 then 0 else col)

def map (g : Grid α) (f : α → β) : Grid β := ⟨g.rows, g.cols, g.items.map f⟩

def toRows (g : Grid α) : List (List α) :=
  (List.range g.rows).map fun i => (g.items.drop (i * g.cols)).take g.cols

/-- The texts of a grid, rows apart by `;` and columns by `,`. -/
def join (g : Grid String) : String :=
  let item := g.lookup
  ";".intercalate <| (List.range g.rows).map fun i =>
    ",".intercalate <| (List.range g.cols).map fun j => (item i j).getD ""

theorem regular_single (a : α) : (single a).Regular := rfl

theorem regular_filled (rows cols : Nat) (a : α) : (filled rows cols a).Regular := by
  simp [Regular, filled]

theorem regular_build (rows cols : Nat) (f : Nat → Nat → α) : (build rows cols f).Regular := by
  simp [Regular, build, List.length_flatMap, List.map_const']

theorem regular_of_ofItems? {rows cols : Nat} {items : List α} {g : Grid α}
    (h : ofItems? rows cols items = some g) : g.Regular := by
  simp only [ofItems?] at h
  split at h
  · cases h; assumption
  · cases h

theorem Regular.map {g : Grid α} (h : g.Regular) (f : α → β) : (g.map f).Regular := by
  simpa [Regular, Grid.map] using h

end Grid

end Spreadsheet
