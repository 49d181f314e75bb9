import Spreadsheet.Value

/-!
Functions that formulas call: how their arguments are prepared, what they may know of the calling cell,
and what they do. A registry finds functions by their names in upper case.
-/

namespace Spreadsheet

open Std Text

/-- How an argument is prepared before the call. -/
inductive ArgumentRule
  /-- The values, of any shape. -/
  | any
  /-- One value; an array of one item is unpacked, a larger one is `#VALUE!`. -/
  | scalar
  /-- One value as a number. -/
  | number
  /-- A reference as it is, and `#VALUE!` for all else. -/
  | reference
  /-- A reference or array as it is; a single value becomes an array of one item. -/
  | referenceOrArray
  /-- The values; errors do not end the call. -/
  | raw
deriving DecidableEq

def ArgumentRule.name : ArgumentRule → String
  | any => "Any"
  | scalar => "Scalar"
  | number => "Number"
  | reference => "Reference"
  | referenceOrArray => "ReferenceOrArray"
  | raw => "Raw"

inductive ArgumentRules
  | uniform (rule : ArgumentRule)
  /-- One rule a position; the last one also holds for all further arguments. -/
  | perArgument (rules : List ArgumentRule)
deriving DecidableEq

def ArgumentRules.rule : ArgumentRules → Nat → ArgumentRule
  | uniform rule, _ => rule
  | perArgument rules, i => (rules[i]?.or rules.getLast?).getD .any

/-- What a function may know of the call: the cell, the bounds of its sheet, the time as a serial number,
and a number that no other call is given. -/
structure CallSite where
  place : Place
  rowCount : Nat
  colCount : Nat
  moment : Float := 0
  draw : Nat := 0

/-- What a function does. Work for later is started by the call and awaited by whoever needs its answer. -/
inductive Task
  | answer (v : Value)
  /-- Breaks off. -/
  | fault
  | later (work : Task)
  /-- Starts a new generation of calculations and goes on. -/
  | supersede (next : Task)

structure FunctionDef where
  /-- In upper case. -/
  name : String
  minArgs : Nat
  maxArgs : Option Nat
  rules : ArgumentRules := .uniform .any
  /-- Gives new results without any change to its arguments. -/
  volatile : Bool := false
  run : List Value → CallSite → Task

def FunctionDef.accepts (f : FunctionDef) (count : Nat) : Bool :=
  f.minArgs ≤ count && (f.maxArgs.map (decide <| count ≤ ·)).getD true

structure Registry where
  functions : ExtTreeMap String FunctionDef := ∅

namespace Registry

def empty : Registry := {}

def find? (r : Registry) (name : String) : Option FunctionDef := r.functions[upper name]?

def contains (r : Registry) (name : String) : Bool := (r.find? name).isSome

def isVolatile (r : Registry) (name : String) : Bool := ((r.find? name).map (·.volatile)).getD false

/-- Adds a function in place of one with the same name. -/
def register (r : Registry) (f : FunctionDef) : Registry := ⟨r.functions.insert (upper f.name) f⟩

def registerAll (r : Registry) (fs : List FunctionDef) : Registry := fs.foldl register r

def size (r : Registry) : Nat := r.functions.size

/-- The names in order. -/
def names (r : Registry) : List String := r.functions.keys

end Registry

namespace Function

/-- The argument at a position, blank if it is left out. -/
def arg (args : List Value) (i : Nat) : Value := args[i]?.getD .blank

def numberArg (args : List Value) (i : Nat) : Except ErrorValue Float := (arg args i).toNumber

def textArg (args : List Value) (i : Nat) : Except ErrorValue String := (arg args i).toText

/-- The arguments with arrays taken apart into their items. -/
def flatten (args : List Value) : List Value :=
  args.flatMap fun
    | .array g => g.items
    | v => [v]

/-- A function that only looks at its arguments. -/
def pure (f : List Value → Value) : List Value → CallSite → Task := fun args _ => .answer (f args)

/-- A function of one number. -/
def ofNumber (f : Float → Float) (args : List Value) : Value := .ofExcept do
  return .ofFinite (f (← numberArg args 0))

end Function

end Spreadsheet
