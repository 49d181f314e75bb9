import Spreadsheet.Function.Basic

/-!
Conditions, connectives and replacements for errors.
-/

namespace Spreadsheet.Function

/-- A missing branch for `TRUE` gives `TRUE`, one for `FALSE` gives `FALSE`. -/
def choose (args : List Value) : Value :=
  match arg args 0 with
  | .error e => .error e
  | v =>
    match v.boolean? with
    | none => .error .value
    | some true => args[1]?.getD (.boolean true)
    | some false => args[2]?.getD (.boolean false)

/-- Texts and blanks inside arrays do not count. -/
def booleansInItems : List Value → Except ErrorValue (List Bool)
  | [] => .ok []
  | .boolean b :: vs => (booleansInItems vs).map (b :: ·)
  | .number x :: vs => (booleansInItems vs).map ((x != 0) :: ·)
  | .error e :: _ => .error e
  | _ :: vs => booleansInItems vs

def booleansIn : List Value → Except ErrorValue (List Bool)
  | [] => .ok []
  | .array g :: vs => do return (← booleansInItems g.items) ++ (← booleansIn vs)
  | .error e :: _ => .error e
  | .blank :: vs => booleansIn vs
  | v :: vs =>
    match v.boolean? with
    | some b => (booleansIn vs).map (b :: ·)
    | none => .error .value

/-- A connective of at least one truth value. -/
def connective (f : List Bool → Bool) (args : List Value) : Value := .ofExcept do
  let bs ← booleansIn args
  return if bs.isEmpty then .error .value else .boolean (f bs)

def negation (args : List Value) : Value :=
  match arg args 0 with
  | .error e => .error e
  | v => match v.boolean? with
    | some b => .boolean !b
    | none => .error .value

/-- The second argument in place of certain errors, item by item in an array. -/
def replaceErrors (replaced : ErrorValue → Bool) (args : List Value) : Value :=
  let replace (v : Value) : Value :=
    match v with
    | .error e => if replaced e then arg args 1 else v
    | _ => v
  match arg args 0 with
  | .array g => .array (g.map replace)
  | v => replace v

def logicFunctions : List FunctionDef :=
  let raw := ArgumentRules.perArgument [.raw]
  [{ name := "IF", minArgs := 1, maxArgs := some 3, rules := .perArgument [.scalar, .raw],
     run := pure choose },
   { name := "AND", minArgs := 1, maxArgs := none, run := pure (connective (·.all id)) },
   { name := "OR", minArgs := 1, maxArgs := none, run := pure (connective (·.any id)) },
   { name := "NOT", minArgs := 1, maxArgs := some 1, rules := .perArgument [.scalar],
     run := pure negation },
   { name := "IFERROR", minArgs := 2, maxArgs := some 2, rules := raw,
     run := pure (replaceErrors fun _ => true) },
   { name := "IFNA", minArgs := 2, maxArgs := some 2, rules := raw,
     run := pure (replaceErrors (· == .notAvailable)) },
   { name := "TRUE", minArgs := 0, maxArgs := some 0, run := pure fun _ => .boolean true },
   { name := "FALSE", minArgs := 0, maxArgs := some 0, run := pure fun _ => .boolean false }]

end Spreadsheet.Function
