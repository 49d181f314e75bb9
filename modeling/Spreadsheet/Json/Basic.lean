/-!
JSON values. Whole numbers within 64 bits and other numbers are kept apart; objects keep their fields in
the order they are written. A text may hold parts that are well formed and yet have no value; they do no
harm where nobody asks for them.
-/

namespace Spreadsheet

/-- The name of a field, and whether it is written with escapes. -/
structure Json.Key where
  text : String
  escaped : Bool := false
deriving DecidableEq, Inhabited

instance : Coe String Json.Key := ⟨fun s => { text := s }⟩

inductive Json
  | null
  | bool (b : Bool)
  | whole (n : Int)
  | float (x : Float)
  | string (s : String)
  | array (items : List Json)
  | object (fields : List (Json.Key × Json))
  /-- A number that is too large, a text with half of a surrogate pair, an object with such a key. -/
  | valueless
deriving Inhabited

namespace Json

/-- The last field of the given name. -/
def field? (name : String) : Json → Option Json
  | object fields => (fields.reverse.find? (·.1.text == name)).map (·.2)
  | _ => none

/-- A field, where a missing one counts as `null`. -/
def get (j : Json) (name : String) : Json := (j.field? name).getD null

def isNull : Json → Bool
  | null => true
  | _ => false

def isNullOrEmptyObject : Json → Bool
  | null | object [] => true
  | _ => false

def items : Json → List Json
  | array items => items
  | _ => []

def keys : Json → List Key
  | object fields => fields.map (·.1)
  | _ => []

def fields : Json → List (String × Json)
  | object fields => fields.map fun (key, j) => (key.text, j)
  | _ => []

def string? : Json → Option String
  | string s => some s
  | _ => none

def bool? : Json → Option Bool
  | bool b => some b
  | _ => none

def whole? : Json → Option Int
  | whole n => some n
  | _ => none

def ofOption (f : α → Json) : Option α → Json
  | some a => f a
  | none => null

def ofNat (n : Nat) : Json := whole n

end Json

end Spreadsheet
