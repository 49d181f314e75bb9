import Spreadsheet.Engine.Calculation
import Spreadsheet.Function.Builtin

/-!
The engine: holds a configuration, runs calculations over it and folds their results into it. A calculation
that is superseded leaves everything as it was.
-/

namespace Spreadsheet

open Std Dependency Formula

structure Engine where
  registry : Registry
  options : Options := {}
  config : Config := {}
  /-- The index of the formulas of `config`. -/
  index : Index := {}
  host : Host := {}
  /-- Where the host says evaluation is. -/
  cursor : Cursor := { place := default, rowCount := 0, colCount := 0 }

namespace Engine

def reindex (e : Engine) : Engine := { e with index := e.config.index e.registry }

/-- Replaces the configuration. -/
def load (e : Engine) (d : Dataset) : Engine := { e with config := Config.load d }.reindex

/-- Adds or replaces a function. Formulas that call it may become volatile or cease to be so. -/
def register (e : Engine) (f : FunctionDef) : Engine :=
  { e with registry := e.registry.register f }.reindex

/-- Supersedes all calculations begun before. -/
def invalidate (e : Engine) : Engine := { e with host := e.host.issueGeneration }

/-- Marks a range as changed. -/
def markDirty (e : Engine) (r : Region) : Engine :=
  { e with config.changes.ranges := e.config.changes.ranges ++ [r] }

/-- Replaces a cell of the workbooks and marks it as changed. -/
def setCell (e : Engine) (p : Place) (cell : Cell) : Except BookError Engine :=
  if (e.config.books.sheet? p.book p.sheet).isNone then .error (.sheetNotFound p.book p.sheet)
  else
    let formulas := match cell.formula.filter (·.hasText) with
      | some f => e.config.formulas.insert p f
      | none => e.config.formulas.erase p
    let config := { e.config with
      books := e.config.books.modifySheet p.book p.sheet (·.setCell p.row p.col cell)
      formulas }
    .ok ({ e with config }.markDirty p.region).reindex

/-- Writes a report into the configuration, after which nothing counts as changed. -/
def commit (e : Engine) (r : Report) : Engine :=
  let c := e.config
  let replaced := r.clearedArrays ++ r.arrayRanges.keys
  let kept := replaced.foldl (fun (values : PlaceMap Scalar) anchor =>
    match c.arrayRanges[anchor]? with
    | some old => (Pass.covered anchor old).foldl (fun m p => m.erase p) values
    | none => values) c.arrayValues
  let config := { c with
    books := r.applyTo c.books
    arrayRanges := r.arrayRanges.foldl (fun m p range => m.insert p range)
      (replaced.foldl (fun m p => m.erase p) c.arrayRanges)
    arrayValues := r.arrayValues.foldl (fun m p v => m.insert p v) kept
    formats := r.formats.foldl (fun m p s => m.insert p s) c.formats
    changes := { excluded := c.changes.excluded }
    dirtyBooks := [] }
  if replaced.isEmpty then { e with config } else { e with config }.reindex

/-- Calculates what has changed, waiting for answers that come later or not. -/
def calculate (e : Engine) (waits : Bool) : Outcome × Engine :=
  let host := e.host.issueGeneration
  let changes := { e.config.changes with volatile := e.options.volatile }
  let calculation : Calculation :=
    { registry := e.registry, options := e.options, config := e.config, index := e.index, waits
      generation := host.generations.latest
      plan := Plan.make e.index e.config.features changes }
  let (outcome, host) := calculation.run host e.cursor
  let e := { e with host }
  match outcome with
  | .completed r => (outcome, e.commit r)
  | .superseded _ => (outcome, e)

/-- Evaluates a formula that is not in the workbooks, as if it were in the given cell. Only the host keeps
traces of it. -/
def evaluate (e : Engine) (text : String) (p : Place) (waits : Bool) : Value × Engine :=
  let snapshot : Snapshot :=
    { registry := e.registry, books := e.config.books, names := e.config.names, index := some e.index }
  let node := Node.parse { names := e.config.names, book := some p.book } text
  let i : Interpreter :=
    { scope := { cursor := e.config.books.cursor p, generation := e.host.generations.latest }
      session := { host := e.host, pass := Calculation.seededPass e.config e.options } }
  let (v, i) := i.evaluate snapshot node waits
  (v.getD (.error .calculation), { e with host := i.session.host })

end Engine

end Spreadsheet
