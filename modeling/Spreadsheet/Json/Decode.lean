import Spreadsheet.Json.Basic
import Spreadsheet.Json.Read
import Spreadsheet.Number.Binary
import Std.Data.ExtTreeSet

/-!
Reading data out of JSON values. A record is an object, whose unknown fields do not count and whose known
ones stand there once, or an array of its fields in their order. A table is an object; of equal keys the
last one counts, and its entries are listed as they are written.
-/

namespace Spreadsheet.Json

open Std

/-- Reads a value, or refuses it. -/
abbrev Decoder (α : Type) := Json → Option α

namespace Decoder

variable {α β : Type}

def string : Decoder String := string?

def bool : Decoder Bool := bool?

def natBelow (bound : Nat) : Decoder Nat
  | whole n => if 0 ≤ n ∧ n < bound then some n.toNat else none
  | _ => none

def int64 : Decoder Int
  | whole n => if -(Nat.pow 2 63 : Nat) ≤ n ∧ n < (Nat.pow 2 63 : Nat) then some n else none
  | _ => none

def number : Decoder Float
  | whole n => some (if n < 0 then -Number.ofNat n.natAbs else Number.ofNat n.natAbs)
  | float x => some x
  | _ => none

def list (d : Decoder α) : Decoder (List α)
  | array items => items.mapM d
  | _ => none

/-- `null`, or a value. -/
def nullable (d : Decoder α) : Decoder (Option α)
  | null => some none
  | j => (d j).map some

def entries (d : Decoder α) : List (Key × Json) → Option (List (String × α))
  | [] => some []
  | (key, j) :: rest => do
    let a ← d j
    return (key.text, a) :: (← entries d rest)

/-- The last entry of each key. -/
def lastOfEach (entries : List (String × α)) : List (String × α) :=
  (entries.foldr (fun (key, a) (kept, keys) =>
    if keys.contains key then (kept, keys) else ((key, a) :: kept, keys.insert key))
    ([], (∅ : ExtTreeSet String))).1

def table (d : Decoder α) : Decoder (List (String × α))
  | object fields => (entries d fields).map lastOfEach
  | _ => none

/-- A key that is a number. -/
def numericKey? (bound : Nat) (key : String) : Option Nat :=
  match key.toList with
  | [] => none
  | c :: rest =>
    if (c.isDigit || c == '-') && rest.all (fun c => !c.isWhitespace) then
      (Json.parse? key).bind (natBelow bound)
    else none

/-- A table whose keys are numbers below a bound, written without escapes. -/
def numberTable (bound : Nat) (d : Decoder α) : Decoder (List (Nat × α)) := fun j =>
  if j.keys.any (·.escaped) then none
  else do (← table d j).mapM fun (key, a) => do return (← numericKey? bound key, a)

/-- The fields of a record that are given. -/
def record (names : List String) : Decoder (List (String × Json))
  | j@(object _) =>
    let known := j.fields.filter fun f => names.contains f.1
    if (known.map (·.1)).Nodup then some known else none
  | array items => if items.length ≤ names.length then some (names.zip items) else none
  | _ => none

/-- A field that has to be there. -/
def field (fields : List (String × Json)) (name : String) (d : Decoder α) : Option α :=
  (fields.lookup name).bind d

/-- A field that may be left out. -/
def fieldOr (fields : List (String × Json)) (name : String) (default : α) (d : Decoder α) : Option α :=
  match fields.lookup name with
  | none => some default
  | some j => d j

/-- One of several names, alone or as the only key of an object, with nothing under it. -/
def oneOf (names : List (String × α)) (isNothing : Json → Bool := isNull) : Decoder α
  | .string s => names.lookup s
  | object [(key, j)] => if isNothing j then names.lookup key.text else none
  | _ => none

end Decoder

end Spreadsheet.Json
