import Spreadsheet.Cell
import Spreadsheet.Grid
import Spreadsheet.Number.Read
import Spreadsheet.Place

/-!
What formulas evaluate to, and how values turn into numbers, texts and truth values where one is wanted.
A reference is read only when its cells are needed; a pending value is the handle of an answer that is
still being worked out.
-/

namespace Spreadsheet

open Text

inductive Value
  | blank
  | number (x : Float)
  | text (s : String)
  | boolean (b : Bool)
  | error (e : ErrorValue)
  | array (g : Grid Value)
  | reference (r : Region)
  | pending (handle : Nat)
deriving Inhabited

namespace Value

def kindName : Value → String
  | blank => "Blank"
  | number _ => "Number"
  | text _ => "Text"
  | boolean _ => "Boolean"
  | error _ => "Error"
  | array _ => "Array"
  | reference _ => "Reference"
  | pending _ => "Pending"

def ofScalar : Scalar → Value
  | .empty => blank
  | .number x => number x
  | .text s => text s
  | .boolean b => boolean b
  | .error e => error e

/-- What a cell stores of the value. An array leaves its first item. -/
def toScalar : Value → Scalar
  | blank => .empty
  | number x => .number x
  | text s => .text s
  | boolean b => .boolean b
  | error e => .error e
  | array ⟨_, _, []⟩ => .empty
  | array ⟨_, _, v :: _⟩ => v.toScalar
  | reference _ => .error .value
  | pending _ => .error .calculation

def number? : Value → Option Float
  | number x => some x
  | boolean b => some (if b then 1 else 0)
  | blank => some 0
  | text s => Number.entry? s
  | _ => none

def text? : Value → Option String
  | text s => some s
  | number x => some (Number.cell x)
  | boolean b => some (if b then "TRUE" else "FALSE")
  | blank => some ""
  | _ => none

def boolean? : Value → Option Bool
  | boolean b => some b
  | number x => some (x != 0)
  | blank => some false
  | text s =>
    if sameLetters (trim s) "TRUE" then some true
    else if sameLetters (trim s) "FALSE" then some false
    else none
  | _ => none

def error? : Value → Option ErrorValue
  | error e => some e
  | _ => none

def isError (v : Value) : Bool := v.error?.isSome

def isBlank : Value → Bool
  | blank => true
  | _ => false

def isNumber : Value → Bool
  | number _ => true
  | _ => false

def isText : Value → Bool
  | text _ => true
  | _ => false

def isBoolean : Value → Bool
  | boolean _ => true
  | _ => false

def isPending : Value → Bool
  | pending _ => true
  | _ => false

/-- The first value that is still pending. -/
def firstPending? (vs : List Value) : Option Value := vs.find? isPending

/-- The number an operator or a numeric argument takes the value for. -/
def toNumber : Value → Except ErrorValue Float
  | error e => .error e
  | array _ | reference _ => .error .value
  | pending _ => .error .calculation
  | v => match v.number? with
    | some x => .ok x
    | none => .error .value

/-- The text that joining texts takes the value for. -/
def toText : Value → Except ErrorValue String
  | error e => .error e
  | pending _ => .error .calculation
  | v => match v.text? with
    | some s => .ok s
    | none => .error .value

/-- The number, unless it is infinite or no number. -/
def ofFinite (x : Float) : Value := if x.isFinite then number x else error .num

def ofExcept : Except ErrorValue Value → Value
  | .ok v => v
  | .error e => error e

/-- The first item of an array, and every other value as it is. -/
def topLeft : Value → Value
  | array g => g.first?.getD blank
  | v => v

/-- A text in quotes, its own quotes doubled. -/
def quote (s : String) : String :=
  String.ofList ('"' :: (s.toList.flatMap fun c => if c = '"' then ['"', '"'] else [c]) ++ ['"'])

mutual

/-- The value as it is shown; texts inside arrays stand in quotes. -/
def display : Value → String
  | error e => e.text
  | array ⟨rows, cols, items⟩ => "\x7b" ++ Grid.join ⟨rows, cols, displayItems items⟩ ++ "\x7d"
  | reference r => r.text
  | pending handle => "<pending #" ++ toString handle ++ ">"
  | blank => ""
  | number x => Number.cell x
  | text s => s
  | boolean b => if b then "TRUE" else "FALSE"

def displayItems : List Value → List String
  | [] => []
  | v :: vs => (match v with | text s => quote s | _ => v.display) :: displayItems vs

end

mutual

/-- Equality by content; a NaN differs from itself, and handles are equal if they are the same. -/
def same : Value → Value → Bool
  | blank, blank => true
  | number x, number y => x == y
  | text s, text t => s == t
  | boolean a, boolean b => a == b
  | error d, error e => d == e
  | array ⟨r, c, vs⟩, array ⟨r', c', ws⟩ => r == r' && c == c' && sameItems vs ws
  | reference r, reference s => r == s
  | pending m, pending n => m == n
  | _, _ => false

def sameItems : List Value → List Value → Bool
  | [], [] => true
  | v :: vs, w :: ws => v.same w && sameItems vs ws
  | _, _ => false

end

theorem toScalar_ofScalar (s : Scalar) : (ofScalar s).toScalar = s := by cases s <;> rfl

end Value

end Spreadsheet
