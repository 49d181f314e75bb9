import Spreadsheet.Json.Basic
import Spreadsheet.Number.Text

/-!
Writing JSON: in one line, or one item a line with an indent of two blanks for each level.
-/

namespace Spreadsheet.Json

def hexChar (n : Nat) : Char := if n < 10 then Char.ofNat (48 + n) else Char.ofNat (87 + n)

def escapeChar (c : Char) : List Char :=
  match c with
  | '"' => ['\\', '"']
  | '\\' => ['\\', '\\']
  | '\n' => ['\\', 'n']
  | '\r' => ['\\', 'r']
  | '\t' => ['\\', 't']
  | '\x08' => ['\\', 'b']
  | '\x0c' => ['\\', 'f']
  | c =>
    if c.toNat < 32 then ['\\', 'u', '0', '0', hexChar (c.toNat / 16), hexChar (c.toNat % 16)] else [c]

def writeString (s : String) : String :=
  String.ofList ('"' :: s.toList.flatMap escapeChar ++ ['"'])

/-- A number that is finite, and `null` for the others. -/
def writeFloat (x : Float) : String := if x.isFinite then Number.jsonStyle.write x else "null"

mutual

def compact : Json → String
  | null => "null"
  | bool b => if b then "true" else "false"
  | whole n => toString n
  | float x => writeFloat x
  | string s => writeString s
  | array items => "[" ++ ",".intercalate (compactItems items) ++ "]"
  | object fields => "\x7b" ++ ",".intercalate (compactFields fields) ++ "\x7d"
  | valueless => "null"

def compactItems : List Json → List String
  | [] => []
  | j :: l => j.compact :: compactItems l

def compactFields : List (Key × Json) → List String
  | [] => []
  | (key, j) :: l => (writeString key.text ++ ":" ++ j.compact) :: compactFields l

end

def lineBreak (level : Nat) : String := String.ofList ('\n' :: List.replicate (2 * level) ' ')

/-- The parts between two brackets, each on a line of its own. -/
def block (level : Nat) (opening : String) (parts : List String) (closing : String) : String :=
  if parts.isEmpty then opening ++ closing
  else
    let line := lineBreak (level + 1)
    opening ++ line ++ ("," ++ line).intercalate parts ++ lineBreak level ++ closing

mutual

def prettyAt (level : Nat) : Json → String
  | array items => block level "[" (prettyItems (level + 1) items) "]"
  | object fields => block level "\x7b" (prettyFields (level + 1) fields) "\x7d"
  | null => "null"
  | bool b => if b then "true" else "false"
  | whole n => toString n
  | float x => writeFloat x
  | string s => writeString s
  | valueless => "null"

def prettyItems (level : Nat) : List Json → List String
  | [] => []
  | j :: l => j.prettyAt level :: prettyItems level l

def prettyFields (level : Nat) : List (Key × Json) → List String
  | [] => []
  | (key, j) :: l => (writeString key.text ++ ": " ++ j.prettyAt level) :: prettyFields level l

end

def pretty (j : Json) : String := j.prettyAt 0

end Spreadsheet.Json
