/-!
The operators of formulas, with their symbols and precedences. A higher precedence binds tighter.
-/

namespace Spreadsheet

inductive UnaryOp
  | negate
  | percent
deriving DecidableEq

inductive BinaryOp
  | add
  | subtract
  | multiply
  | divide
  | power
  | equal
  | notEqual
  | less
  | lessEqual
  | greater
  | greaterEqual
  | concat
  | range
  | intersect
deriving DecidableEq

def UnaryOp.precedence : UnaryOp → Nat
  | negate => 7
  | percent => 9

namespace BinaryOp

def all : List BinaryOp :=
  [add, subtract, multiply, divide, power, equal, notEqual, less, lessEqual, greater, greaterEqual,
   concat, range, intersect]

def precedence : BinaryOp → Nat
  | intersect => 1
  | range => 2
  | equal | notEqual | less | lessEqual | greater | greaterEqual => 3
  | concat => 4
  | add | subtract => 5
  | multiply | divide => 6
  | power => 8

def isComparison (op : BinaryOp) : Bool := op.precedence == 3

def symbol : BinaryOp → String
  | add => "+"
  | subtract => "-"
  | multiply => "*"
  | divide => "/"
  | power => "^"
  | equal => "="
  | notEqual => "<>"
  | less => "<"
  | lessEqual => "<="
  | greater => ">"
  | greaterEqual => ">="
  | concat => "&"
  | range => ":"
  | intersect => " "

def name : BinaryOp → String
  | add => "Add"
  | subtract => "Subtract"
  | multiply => "Multiply"
  | divide => "Divide"
  | power => "Power"
  | equal => "Equal"
  | notEqual => "NotEqual"
  | less => "LessThan"
  | lessEqual => "LessEqual"
  | greater => "GreaterThan"
  | greaterEqual => "GreaterEqual"
  | concat => "Concat"
  | range => "Range"
  | intersect => "Intersect"

def ofSymbol? (s : String) : Option BinaryOp := all.find? (·.symbol == s)

theorem ofSymbol?_symbol (op : BinaryOp) : ofSymbol? op.symbol = some op := by cases op <;> decide

end BinaryOp

end Spreadsheet
