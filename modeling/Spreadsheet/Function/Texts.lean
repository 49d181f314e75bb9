import Spreadsheet.Function.Basic
import Spreadsheet.Number.Binary

/-!
Texts: their length and parts, their case, and joining them. Lengths are counted in characters.
-/

namespace Spreadsheet.Function

open Text

def ofText (f : String → Value) (args : List Value) : Value := .ofExcept do
  return f (← textArg args 0)

/-- A count of characters, one if it is left out. -/
def countArg (args : List Value) (i : Nat) : Except ErrorValue Nat :=
  if args.length ≤ i then .ok 1
  else do
    let x ← numberArg args i
    if x < 0 then throw .value
    return (Number.truncate x).toNat

def left (args : List Value) : Value := .ofExcept do
  let s ← textArg args 0
  return .text (String.ofList (s.toList.take (← countArg args 1)))

def right (args : List Value) : Value := .ofExcept do
  let cs := (← textArg args 0).toList
  return .text (String.ofList (cs.drop (cs.length - (← countArg args 1))))

def middle (args : List Value) : Value := .ofExcept do
  let s ← textArg args 0
  let start ← numberArg args 1
  if !(1 ≤ start) then throw .value
  let count ← countArg args 2
  return .text (String.ofList ((s.toList.drop ((Number.truncate start).toNat - 1)).take count))

/-- The words between spaces, with one space between each two. -/
def squeeze (s : String) : String :=
  " ".intercalate ((s.splitOn " ").filter (· != ""))

def concat : List Value → Except ErrorValue String
  | [] => .ok ""
  | v :: vs => do return (← v.toText) ++ (← concat vs)

def textFunctions : List FunctionDef :=
  let scalar := ArgumentRules.perArgument [.scalar]
  let counted := ArgumentRules.perArgument [.scalar, .number]
  let one (name : String) (f : String → Value) : FunctionDef :=
    { name, minArgs := 1, maxArgs := some 1, rules := scalar, run := pure (ofText f) }
  [one "LEN" fun s => .number (Number.ofNat s.length),
   { name := "LEFT", minArgs := 1, maxArgs := some 2, rules := counted, run := pure left },
   { name := "RIGHT", minArgs := 1, maxArgs := some 2, rules := counted, run := pure right },
   { name := "MID", minArgs := 3, maxArgs := some 3, rules := counted, run := pure middle },
   one "UPPER" fun s => .text (upper s),
   one "LOWER" fun s => .text (lower s),
   one "TRIM" fun s => .text (squeeze s),
   { name := "CONCATENATE", minArgs := 1, maxArgs := none, rules := scalar,
     run := pure fun args => .ofExcept ((concat args).map .text) },
   { name := "CONCAT", minArgs := 1, maxArgs := none,
     run := pure fun args => .ofExcept ((concat (flatten args)).map .text) }]

end Spreadsheet.Function
