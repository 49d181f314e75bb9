import Spreadsheet.Dependency.Plan
import Spreadsheet.Engine.Config
import Spreadsheet.Engine.Report
import Spreadsheet.Evaluation.Interpreter

/-!
One calculation. The planned cells are calculated in order; then once more those that read what an array
has newly covered or left, since the plan did not know of it; and last the formulas outside the cells. A
formula that breaks off counts as `#CALC!`. As soon as a newer calculation begins, this one ends without
results.
-/

namespace Spreadsheet

open Std Dependency Formula

structure Options where
  /-- Volatile formulas are calculated in every calculation. -/
  volatile : Bool := true
  spillArrays : Bool := true
  /-- Results without a number format take over that of the cell their formula begins with. -/
  inferFormats : Bool := true
deriving DecidableEq

/-- What a calculation is made of. -/
structure Calculation where
  registry : Registry
  options : Options
  config : Config
  index : Index
  /-- Are answers that come later waited for? -/
  waits : Bool
  generation : Nat
  plan : Plan

namespace Calculation

def snapshot (c : Calculation) : Snapshot where
  registry := c.registry
  books := c.config.books
  names := c.config.names
  index := some c.index

/-- A pass that knows what arrays have spilled before. -/
def seededPass (config : Config) (options : Options) : Pass :=
  config.arrayRanges.foldl
    (fun pass p r => pass.addSpill p r (config.arrayValuesIn ⟨p.book, p.sheet, r⟩))
    { spillArrays := options.spillArrays }

/-- The interpreter before the first cell. Cells on cycles have their results already. -/
def interpreter (c : Calculation) (host : Host) (cursor : Cursor) : Interpreter where
  scope := { cursor, generation := c.generation }
  session :=
    { host
      pass := (c.plan.cycles.foldl Pass.markCycle (seededPass c.config c.options)).markDirty c.plan.cells }

def isCurrent (c : Calculation) (i : Interpreter) : Bool :=
  i.session.host.generations.isCurrent c.generation

/-- Calculates a cell; a formula that breaks off leaves `#CALC!`. -/
def evaluateCell (c : Calculation) (i : Interpreter) (p : Place) : Interpreter :=
  match i.evaluateCell c.snapshot p c.waits with
  | .ok (some _, i) => i
  | .ok (none, i) => i.reset.recordResult c.snapshot p (.error .calculation)
  | .error _ => i.reset.recordResult c.snapshot p (.error .calculation)

/-- Calculates cells in order, as long as the calculation is the latest one. -/
def evaluateCells (c : Calculation) (i : Interpreter) : List Place → Interpreter
  | [] => i
  | p :: rest =>
    let i := c.evaluateCell i p
    if c.isCurrent i then c.evaluateCells i rest else i

/-- The anchors whose arrays cover another range than before, each with both ranges. -/
def movedAnchors (c : Calculation) (pass : Pass) : List (Place × List Region) :=
  pass.changedAnchors.toList.filterMap fun p =>
    let now := pass.anchors[p]?
    let before := c.config.arrayRanges[p]?
    if now = before then none
    else some (p, (now.toList ++ before.toList).map fun r => ⟨p.book, p.sheet, r⟩)

/-- The cells that read what arrays have newly covered or left, in the order of a plan of their own. -/
def spillReaders (c : Calculation) (pass : Pass) : List Place :=
  let moved := c.movedAnchors pass
  let changes : Changes := { ranges := moved.flatMap (·.2), excluded := c.config.changes.excluded }
  if moved.isEmpty then []
  else (Plan.make c.index [] changes).cells.filter fun p => !moved.any (·.1 == p)

/-- Evaluates a formula outside the cells at its anchor. -/
def evaluateOther (c : Calculation) (i : Interpreter) (e : Entry) : Value × Interpreter :=
  let start := e.output.range.start
  let i := i.moveTo (c.config.books.cursor ⟨e.output.book, e.output.sheet, start.row, start.col⟩)
  match i.evaluate c.snapshot e.node c.waits with
  | (some v, i) => (v, i)
  | (none, i) => (.error .calculation, i.reset)

def evaluateOthers (c : Calculation) (i : Interpreter) : ItemMap Value × Interpreter :=
  c.plan.others.foldl (fun (values, i) k =>
    match c.index.other? k with
    | none => (values, i)
    | some e =>
      let (v, i) := c.evaluateOther i e
      (values.insert k v, i)) (∅, i)

/-- The cell that a formula mentions first, if it begins with a reference to one cell. -/
def leadingCell? (e : Entry) (p : Place) : Option Place :=
  match e.node.nodes.find? fun n => match n with | .reference .. => true | _ => false with
  | some (.reference _ book sheet r) =>
    if r.isSingle then some ⟨book.getD p.book, sheet.getD p.sheet, r.start.row, r.start.col⟩ else none
  | _ => none

/-- Gives a result the number format of its leading cell, if it has none itself. -/
def inferFormat (c : Calculation) (pass : Pass) (formats : PlaceMap String) (p : Place) :
    PlaceMap String :=
  let computed := (pass.results[p]?.map (!·.isError)).getD false
  if !computed || c.config.formats.contains p then formats
  else
    match (c.index.cell? p).bind (leadingCell? · p) with
    | none => formats
    | some source =>
      match formats[source]?.or c.config.formats[source]? with
      | some format => formats.insert p format
      | none => formats

/-- The cells that a calculation has gone through, each once. -/
def calculated (c : Calculation) (again : List Place) : List Place :=
  let planned : PlaceSet := c.plan.cells.foldl (fun set p => set.insert p) ∅
  c.plan.cells ++ again.filter (!planned.contains ·)

/-- The report at the end, after the cells in `again` were calculated once more. -/
def report (c : Calculation) (pass : Pass) (again : List Place) (others : ItemMap Value) : Report :=
  let calculated := c.calculated again
  let results := (c.plan.cycles ++ calculated).filterMap fun p => pass.results[p]?.map (p, ·)
  let changed := pass.changedAnchors.toList
  let spills := changed.filterMap fun p => pass.anchors[p]?.map (p, ·)
  let spilledAt (p : Place) : Scalar := (pass.spilled[p]?.map Value.toScalar).getD .empty
  { values := results.foldl (fun m (p, v) => m.insert p v.toScalar) ∅
    arrayRanges := spills.foldl (fun m (p, r) => m.insert p r) ∅
    arrayValues := spills.foldl (fun m (anchor, r) =>
      (Pass.covered anchor r).foldl (fun m p => m.insert p (spilledAt p)) m) ∅
    clearedArrays := changed.filter (!pass.anchors.contains ·)
    others
    formats := if c.options.inferFormats then calculated.foldl (c.inferFormat pass) ∅ else ∅
    features := c.plan.features
    stats :=
      { formulas := c.index.size
        calculated := calculated.length
        circular := c.plan.cycles.length
        volatile := if c.options.volatile then c.index.volatileCount else 0
        errors := results.countP (·.2.isError) } }

/-- Runs the calculation. The host keeps what functions did to it, however the calculation ends. -/
def run (c : Calculation) (host : Host) (cursor : Cursor) : Outcome × Host :=
  let i := c.evaluateCells (c.interpreter host cursor) c.plan.cells
  if !c.isCurrent i then (.superseded c.generation, i.session.host)
  else
    let again := c.spillReaders i.session.pass
    let i := c.evaluateCells (i.modifyPass fun pass => again.foldl Pass.invalidate pass) again
    if !c.isCurrent i then (.superseded c.generation, i.session.host)
    else
      let (others, i) := c.evaluateOthers i
      if !c.isCurrent i then (.superseded c.generation, i.session.host)
      else (.completed (c.report i.session.pass again others), i.session.host)

end Calculation

end Spreadsheet
