import Spreadsheet.Arithmetic
import Spreadsheet.Evaluation.Session

/-!
Evaluation of formulas. A reference stays a reference until its cells are needed. A cell that is still to
be calculated is calculated as soon as it is read; a cell or a definition that is met while it is being
evaluated reads as `#CYCLE!`.

Formulas lead to other formulas, through cells and through definitions. An `Evaluator` works on formulas
at one level and hands those that they lead to to the evaluator below it. Every level enters one more cell
or definition, so that as many levels as `Snapshot.depth` says are never used up.
-/

namespace Spreadsheet

open Std Text Dependency Formula

structure Evaluator where
  /-- The value of a formula, which may be a reference. -/
  evaluate : Node → Eval Value
  /-- The values that a reference covers; other values stay as they are. -/
  materialize : Value → Eval Value

namespace Evaluator

/-- An evaluator that answers `#CYCLE!` to everything. -/
def bottom : Evaluator := ⟨fun _ => pure (.error .cycle), fun _ => pure (.error .cycle)⟩

/-- The value of a formula with references replaced by what they cover. -/
def value (e : Evaluator) (n : Node) : Eval Value := do e.materialize (← e.evaluate n)

variable (snapshot : Snapshot) (below : Evaluator)

/-- Evaluates a formula cell that is still to be calculated, and stores its result unless it has to wait. -/
def calculate (p : Place) : Eval Value := do
  if (← read).cells.contains p then return .error .cycle
  match snapshot.formulas.cell? p with
  | none => return snapshot.stored p
  | some entry =>
    let v ← withReader (·.enterCell (snapshot.books.cursor p)) (below.value entry.node)
    if v.isPending then return v
    Eval.modifyPass (·.store snapshot.books snapshot.formulas p v)
    return (← get).pass.results[p]?.getD .blank

/-- Where nothing of this pass tells what a cell holds: the values that arrays have spilled, then what is
stored. -/
def settledValue (p : Place) : Eval Value := do
  return (← get).pass.spilled[p]?.getD (snapshot.stored p)

/-- What a cell reads as in this pass. -/
def readCell (p : Place) : Eval Value := do
  let pass := (← get).pass
  if pass.cycles.contains p then return .error .cycle
  if let some v := pass.results[p]? then return v.topLeft
  if pass.dirty.contains p then return (← calculate snapshot below p).topLeft
  match pass.dirtyAnchorOver? p with
  | none => settledValue snapshot p
  | some anchor =>
    let v ← calculate snapshot below anchor
    if v.isPending then return v else settledValue snapshot p

/-- Reads all cells of a region. -/
def readRegion (r : Region) : Eval Value :=
  match snapshot.books.sheet? r.book r.sheet with
  | none => return .error .ref
  | some sheet => do
    let range := r.range.clamp sheet.rowCount sheet.colCount
    if range.isSingle then readCell snapshot below ⟨r.book, r.sheet, range.start.row, range.start.col⟩
    else
      let values ← ({ r with range } : Region).places.mapM (readCell snapshot below)
      return (Value.firstPending? values).getD (.array ⟨range.rowCount, range.colCount, values⟩)

def materializeWith : Value → Eval Value
  | .reference r => readRegion snapshot below r
  | v => return v

/-- An array of one item stands for its item; a larger one is no single value. -/
def unpack : Value → Value
  | .array g => if g.size = 1 then g.first?.getD .blank else .error .value
  | v => v

/-- Prepares an argument by its rule. -/
def prepare (rule : ArgumentRule) (v : Value) : Eval Value :=
  if v.isPending then return v
  else match rule with
    | .reference =>
      return match v with
        | .reference _ | .error _ => v
        | _ => .error .value
    | .referenceOrArray =>
      return match v with
        | .reference _ | .array _ | .error _ => v
        | v => .array (Grid.single v)
    | .scalar => return unpack (← materializeWith snapshot below v)
    | .number => do
      let v := unpack (← materializeWith snapshot below v)
      return if v.isPending then v else .ofExcept (v.toNumber.map .number)
    | .any | .raw => materializeWith snapshot below v

/-- The first error among prepared arguments that the function does not want to see. -/
def firstError? (args : List (ArgumentRule × Value)) : Option ErrorValue :=
  args.findSome? fun (rule, v) => if rule = .raw then none else v.error?

/-- Runs a function on prepared arguments. An answer that comes later is an error unless it is waited for. -/
def run (key : CallKey) (f : FunctionDef) (args : List Value) : Eval Value := do
  let scope ← read
  let c := scope.cursor
  let v ← Eval.ask (·.call f args c.place c.rowCount c.colCount)
  if scope.waits then
    if let .pending handle := v then Eval.await key handle
    Eval.remember key v
    return v
  else return if v.isPending then .error .calculation else v

/-- Calls a function. While answers are waited for, a call that was made before is not made again. -/
def call (start : Nat) (name : String) (count : Nat)
    (arguments : FunctionDef → Eval (List (ArgumentRule × Value))) : Eval Value := do
  let scope ← read
  let key := scope.callKey start
  if scope.waits then
    if let some v := (← get).answers[key]? then
      if let .pending handle := v then Eval.await key handle
      return v
  match snapshot.registry.find? name with
  | none => return .error .name
  | some f =>
    if !f.accepts count then return .error .notAvailable
    let args ← arguments f
    match Value.firstPending? (args.map (·.2)), firstError? args with
    | some v, _ => return v
    | none, some e => return .error e
    | none, none => run key f (args.map (·.2))

/-- The tree of a definition, parsed when it is used for the first time. -/
def definitionNode (key : NameKey) (d : DefinedName) : Eval Node := do
  match (← get).definitions[key]? with
  | some n => return n
  | none =>
    let n := Node.parse { names := snapshot.names, book := some key.book } d.formula
    modify fun s => { s with definitions := s.definitions.insert key n }
    return n

/-- Evaluates the definition that a name has in the current cell. -/
def evaluateName (name : String) : Eval Value := do
  let scope ← read
  let p := scope.cursor.place
  match (snapshot.books.book? p.book).bind (·.definition? name (some p.sheet)) with
  | none => return .error .name
  | some d =>
    let key : NameKey := ⟨p.book, d.scope, upper name⟩
    if scope.names.contains key then return .error .cycle
    let n ← definitionNode snapshot key d
    withReader (·.enterName key) (below.evaluate n)

/-- The operators that make references out of references. -/
def joinReferences (op : BinaryOp) (v w : Value) : Value :=
  match Value.firstPending? [v, w], v.error?.or w.error? with
  | some p, _ => p
  | none, some e => .error e
  | none, none =>
    match v, w with
    | .reference r, .reference s =>
      if op = .range then
        if r.sameSheet s then .reference { r with range := r.range.bounding s.range } else .error .ref
      else if r.sameSheet s then
        match r.range.intersect? s.range with
        | some range => .reference { r with range }
        | none => .error .null
      else .error .null
    | _, _ => .error .value

/-- All items of a union in one row. -/
def unite (values : List Value) : Value :=
  match Value.firstPending? values, values.findSome? Value.error? with
  | some p, _ => p
  | none, some e => .error e
  | none, none =>
    .array <| Grid.ofRows [values.flatMap fun
      | .array g => g.items
      | v => [v]] (.error .notAvailable)

def makeArray (rows : List (List Value)) : Value :=
  (Value.firstPending? rows.flatten).getD (.array (Grid.ofRows rows (.error .notAvailable)))

mutual

def evaluateWith : Node → Eval Value
  | .literal _ l => return l.value
  | .reference _ book sheet range => do
    let p := (← read).cursor.place
    return .reference ⟨book.getD p.book, sheet.getD p.sheet, range⟩
  | .name _ name => evaluateName snapshot below name
  | .unary _ op n => do
    let v ← materializeWith snapshot below (← evaluateWith n)
    return if v.isPending then v else v.applyUnary op
  | .binary _ op l r =>
    if op = .range ∨ op = .intersect then do
      let v ← evaluateWith l
      let w ← evaluateWith r
      return joinReferences op v w
    else do
      let v ← materializeWith snapshot below (← evaluateWith l)
      let w ← materializeWith snapshot below (← evaluateWith r)
      return (Value.firstPending? [v, w]).getD (v.applyBinary op w)
  | .call span name args =>
    call snapshot span.start name args.length fun f => evaluateArguments f 0 args
  | .array _ rows => return makeArray (← evaluateRows rows)
  | .union _ items => return unite (← evaluateAll items)
  | .missing _ => return .blank
  | .invalid _ p => return .error p.error

/-- The arguments of a function from the `i`-th one on, each with its rule. -/
def evaluateArguments (f : FunctionDef) (i : Nat) : List Node → Eval (List (ArgumentRule × Value))
  | [] => return []
  | n :: ns => do
    let rule := f.rules.rule i
    let v ← prepare snapshot below rule (← evaluateWith n)
    return (rule, v) :: (← evaluateArguments f (i + 1) ns)

def evaluateAll : List Node → Eval (List Value)
  | [] => return []
  | n :: ns => do
    let v ← materializeWith snapshot below (← evaluateWith n)
    return v :: (← evaluateAll ns)

/-- The items of an array constant; what is an array itself leaves its first item. -/
def evaluateRows : List (List Node) → Eval (List (List Value))
  | [] => return []
  | ns :: rows => do
    let row ← evaluateAll ns
    return row.map Value.topLeft :: (← evaluateRows rows)

end

/-- An evaluator with a number of levels. The levels below are made when a formula leads to them. -/
def ofDepth (snapshot : Snapshot) : Nat → Evaluator
  | 0 => bottom
  | depth + 1 =>
    { evaluate := fun n => evaluateWith snapshot (ofDepth snapshot depth) n
      materialize := fun v => materializeWith snapshot (ofDepth snapshot depth) v }

end Evaluator

/-- Evaluates formulas over a snapshot. -/
def Snapshot.evaluator (s : Snapshot) : Evaluator := Evaluator.ofDepth s (s.depth + 1)

end Spreadsheet
