import Spreadsheet.Function.Basic

/-!
Questions about the kind of a value, item by item in an array.
-/

namespace Spreadsheet.Function

def test (holds : Value → Bool) (args : List Value) : Value :=
  match arg args 0 with
  | .array g => .array (g.map fun v => .boolean (holds v))
  | v => .boolean (holds v)

def isNotAvailable : Value → Bool
  | .error e => e == .notAvailable
  | _ => false

def isOtherError (v : Value) : Bool := v.isError && !isNotAvailable v

def errorType (args : List Value) : Value :=
  match arg args 0 with
  | .error e => .number (Number.ofNat e.typeNumber)
  | _ => .error .notAvailable

def infoFunctions : List FunctionDef :=
  let question (name : String) (holds : Value → Bool) : FunctionDef :=
    { name, minArgs := 1, maxArgs := some 1, rules := .perArgument [.raw], run := pure (test holds) }
  [question "ISBLANK" Value.isBlank,
   question "ISNUMBER" Value.isNumber,
   question "ISTEXT" Value.isText,
   question "ISLOGICAL" Value.isBoolean,
   question "ISERROR" Value.isError,
   question "ISERR" isOtherError,
   question "ISNA" isNotAvailable,
   { name := "NA", minArgs := 0, maxArgs := some 0, run := pure fun _ => .error .notAvailable },
   { name := "ERROR.TYPE", minArgs := 1, maxArgs := some 1, rules := .perArgument [.raw],
     run := pure errorType }]

end Spreadsheet.Function
