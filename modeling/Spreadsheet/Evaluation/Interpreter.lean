import Spreadsheet.Evaluation.Formula

/-!
Evaluations from start to end. An evaluation that does not wait takes an answer that comes later for
`#CALC!`. One that waits is repeated until nothing is left to wait for: in each round it collects the
calls whose answers come later, has them answered, and remembers the answers for the next round.

An interpreter keeps its state from one evaluation to the next. When one breaks off, the interpreter stays
in the scope where that happened until it is reset.
-/

namespace Spreadsheet

open Std Dependency Formula

structure Interpreter where
  scope : Scope
  session : Session := {}
  /-- Where the evaluation that broke off had started. -/
  interrupted : Option Cursor := none

/-- Why a cell cannot be evaluated. -/
inductive FormulaError
  | noIndex
  | notAFormula (p : Place)
deriving DecidableEq

def FormulaError.message : FormulaError → String
  | noIndex => "no formula index attached to the interpreter"
  | notAFormula p => "no formula at " ++ p.text

/-- The value that an evaluation ends with: no handle and no reference. -/
def Value.settled : Value → Value
  | .pending _ | .reference _ => .error .calculation
  | v => v

namespace Eval

/-- Works out the awaited answers in the order in which they were met. -/
def answerAwaited : Eval (List (CallKey × Value)) := do
  let awaited := (← get).awaited.reverse
  modify fun s => { s with awaited := [] }
  awaited.mapM fun (key, handle) => return (key, ← ask (·.resolve handle))

/-- Repeats an evaluation until nothing is left to wait for, or until its calculation is superseded. Each
round but the last answers at least one call. -/
def waitFor (attempt : Eval Value) : (rounds : Nat) → Eval Value
  | 0 => return .error .calculation
  | rounds + 1 => do
    modify fun s => { s with awaited := [] }
    let v ← attempt
    if (← get).awaited.isEmpty then return v.settled
    for (key, v) in ← answerAwaited do
      remember key v
    if (← get).host.generations.isCurrent (← read).generation then waitFor attempt rounds
    else return .error .calculation

/-- More rounds than any evaluation takes. -/
def maxRounds : Nat := Nat.pow 2 32

def forgetAnswers : Eval Unit := modify fun s => { s with answers := ∅ }

end Eval

namespace Interpreter

/-- Runs an evaluation from the current cell; nothing, if it breaks off. -/
def run (i : Interpreter) (waits : Bool) (origin : Origin) (act : Eval Value) :
    Option Value × Interpreter :=
  let scope := { i.scope with waits, origin }
  let whole : Eval Value :=
    if waits then do
      let v ← Eval.waitFor act Eval.maxRounds
      Eval.forgetAnswers
      return v
    else return (← act).settled
  match (whole.run scope).run i.session with
  | (.ok v, session) => (some v, { i with session, interrupted := none })
  | (.error scope, session) => (none, ⟨scope, session, some i.scope.cursor⟩)

/-- Evaluates a formula in the current cell. -/
def evaluate (i : Interpreter) (snapshot : Snapshot) (n : Node) (waits : Bool) :
    Option Value × Interpreter :=
  let entry := i.session.entries + 1
  { i with session := { i.session with entries := entry } }.run waits { entry }
    (snapshot.evaluator.value n)

/-- Evaluates a formula cell and records its result; a result recorded before is the answer. -/
def evaluateCell (i : Interpreter) (snapshot : Snapshot) (p : Place) (waits : Bool) :
    Except FormulaError (Option Value × Interpreter) :=
  match snapshot.index with
  | none => .error .noIndex
  | some index =>
    if !index.cells.contains p then .error (.notAFormula p)
    else
      let attempt : Eval Value := do
        match (← get).pass.results[p]? with
        | some v => return v
        | none => Evaluator.calculate snapshot snapshot.evaluator p
      .ok <| match i.run waits {} attempt with
        | (none, i) => (none, i)
        | (some v, i) =>
          if i.session.pass.results.contains p then (some v, i)
          else
            let pass := i.session.pass.store snapshot.books index p v
            (some v, { i with session := { i.session with pass } })

/-- Records a result without evaluating anything. -/
def recordResult (i : Interpreter) (snapshot : Snapshot) (p : Place) (v : Value) : Interpreter :=
  let pass := i.session.pass.store snapshot.books snapshot.formulas p v
  { i with session := { i.session with pass } }

def modifyPass (i : Interpreter) (f : Pass → Pass) : Interpreter :=
  { i with session := { i.session with pass := f i.session.pass } }

def moveTo (i : Interpreter) (c : Cursor) : Interpreter := { i with scope := i.scope.moveTo c }

/-- Goes back to where the evaluation that broke off started, and forgets what it was doing. -/
def reset (i : Interpreter) : Interpreter where
  scope :=
    { cursor := i.interrupted.getD i.scope.cursor
      generation := i.scope.generation }
  session := { i.session with answers := ∅, awaited := [] }

end Interpreter

end Spreadsheet
