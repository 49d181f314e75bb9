import Spreadsheet.ErrorValue

/-!
The tokens of formulas. Positions in a formula are counted in bytes of UTF-8.
-/

namespace Spreadsheet.Formula

structure Span where
  start : Nat
  stop : Nat
deriving DecidableEq, Inhabited

/-- The smallest span over both. -/
def Span.to (s t : Span) : Span := ⟨min s.start t.start, max s.stop t.stop⟩

/-- The characters that a locale writes between arguments, in numbers and in array constants. -/
structure Separators where
  argument : Char := ','
  decimal : Char := '.'
  arrayColumn : Char := ','
  arrayRow : Char := ';'
deriving DecidableEq

/-- Locales that write a comma in numbers. -/
def Separators.semicolon : Separators := ⟨';', ',', '\\', ';'⟩

inductive OperatorSign
  | plus
  | minus
  | multiply
  | divide
  | power
  | percent
  | concat
  | equal
  | notEqual
  | less
  | lessEqual
  | greater
  | greaterEqual
  /-- A colon between operands that are not read as one reference. -/
  | colon
  /-- Blanks between two operands. -/
  | intersect
deriving DecidableEq

/-- A reference as written, its qualifiers without quotes and brackets. -/
structure ReferenceToken where
  book : Option String
  sheet : Option String
  area : String
deriving DecidableEq

inductive Token
  | number (x : Float)
  | text (s : String)
  | boolean (b : Bool)
  | error (e : ErrorValue)
  | operator (o : OperatorSign)
  /-- The name of a function in upper case, before its arguments. -/
  | function (name : String)
  | reference (r : ReferenceToken)
  | name (name : String)
  | argumentSeparator
  | columnSeparator
  | rowSeparator

namespace Token

/-- Can an operand end with this token, so that blanks after it may intersect? -/
def endsOperand : Token → Bool
  | number _ | text _ | boolean _ | error _ | reference _ | name _ => true
  | operator o => o == .percent
  | function _ | argumentSeparator | columnSeparator | rowSeparator => false

end Token

inductive GroupKind
  | paren
  | brace
  | bracket
deriving DecidableEq

def GroupKind.closer : GroupKind → Char
  | paren => ')'
  | brace => '\x7d'
  | bracket => ']'

/-- What is wrong with a stretch of text that is no token. -/
inductive Malformation
  | noEquals
  | tooDeep
  | unqualifiedSheet
  | strayMark
  | unmatched (closer : Char)
  | unterminatedText
  | unknownError
  | badNumber
  | stray (c : Char)
deriving DecidableEq

def Malformation.message : Malformation → String
  | noEquals => "formula must start with '='"
  | tooDeep => "brackets nested too deeply"
  | unqualifiedSheet => "unterminated or unqualified sheet name"
  | strayMark => "unexpected '$'"
  | unmatched closer => "unmatched '" ++ closer.toString ++ "'"
  | unterminatedText => "unterminated string"
  | unknownError => "unknown error literal"
  | badNumber => "invalid number"
  | stray c => "unexpected character '" ++ c.toString ++ "'"

end Spreadsheet.Formula
