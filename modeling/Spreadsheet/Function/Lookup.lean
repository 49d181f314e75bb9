import Spreadsheet.Function.Basic

/-!
Shapes and positions of areas, and the choice of a part of one. On a reference `INDEX` answers with a
reference.
-/

namespace Spreadsheet.Function

/-- Rows and columns of a reference or an array. -/
def shape? : Value → Option (Nat × Nat)
  | .reference r => some (r.range.rowCount, r.range.colCount)
  | .array g => some (g.rows, g.cols)
  | _ => none

def extent (side : Nat × Nat → Nat) : List Value → Value
  | [] => .error .notAvailable
  | v :: _ => .number (Number.ofNat (((shape? v).map side).getD 1))

/-- The first row or column of a reference, or that of the calling cell, counted from one. -/
def ordinal (ofStart : Address → Nat) (ofPlace : Place → Nat) (args : List Value) (site : CallSite) : Task :=
  .answer <| match args with
    | [] | .blank :: _ => .number (Number.ofNat (ofPlace site.place + 1))
    | .reference r :: _ => .number (Number.ofNat (ofStart r.range.start + 1))
    | _ => .error .value

/-- The rows or columns that an index selects: all of them for zero, else one. -/
def selected (index : Int) (size : Nat) : Nat × Nat :=
  if index = 0 then (0, size - 1) else (index.toNat - 1, index.toNat - 1)

def part (v : Value) (rows cols : Nat × Nat) : Value :=
  match v with
  | .reference r =>
    let start := r.range.start
    .reference { r with
      range := Range.between (start.row + rows.1) (start.col + cols.1) (start.row + rows.2)
        (start.col + cols.2) }
  | .array g =>
    let item := g.lookup
    let at' (i j : Nat) : Value := (item (rows.1 + i) (cols.1 + j)).getD (.error .ref)
    if rows.1 = rows.2 ∧ cols.1 = cols.2 then at' 0 0
    else .array (Grid.build (rows.2 - rows.1 + 1) (cols.2 - cols.1 + 1) at')
  | _ => .error .value

/-- With two arguments the index runs along the only row of an area, or down its only column. -/
def index (args : List Value) : Value :=
  match shape? (arg args 0) with
  | none => .error .value
  | some (rows, cols) =>
    if rows = 0 ∨ cols = 0 then .error .ref
    else .ofExcept do
      let row := Number.truncate (← numberArg args 1)
      let col := Number.truncate (← numberArg args 2)
      let short := args.length < 3
      let (row, col) := if short ∧ rows = 1 ∧ 1 < cols then (1, row) else (row, col)
      let col := if short ∧ cols = 1 ∧ col = 0 then 1 else col
      return if row < 0 ∨ col < 0 then .error .value
        else if rows < row ∨ cols < col then .error .ref
        else part (arg args 0) (selected row rows) (selected col cols)

def pick (args : List Value) : Value := .ofExcept do
  let x ← numberArg args 0
  return if x < 1 || Number.ofNat args.length ≤ x then .error .value
    else arg args (Number.truncate x).toNat

def lookupFunctions : List FunctionDef :=
  let area := ArgumentRules.perArgument [.referenceOrArray]
  let reference := ArgumentRules.perArgument [.reference]
  [{ name := "ROWS", minArgs := 1, maxArgs := some 1, rules := area, run := pure (extent Prod.fst) },
   { name := "COLUMNS", minArgs := 1, maxArgs := some 1, rules := area, run := pure (extent Prod.snd) },
   { name := "ROW", minArgs := 0, maxArgs := some 1, rules := reference,
     run := ordinal Address.row Place.row },
   { name := "COLUMN", minArgs := 0, maxArgs := some 1, rules := reference,
     run := ordinal Address.col Place.col },
   { name := "INDEX", minArgs := 2, maxArgs := some 3,
     rules := .perArgument [.referenceOrArray, .number], run := pure index },
   { name := "CHOOSE", minArgs := 2, maxArgs := none, rules := .perArgument [.number, .raw],
     run := pure pick }]

end Spreadsheet.Function
