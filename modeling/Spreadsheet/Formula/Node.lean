import Spreadsheet.Formula.Token
import Spreadsheet.Operator
import Spreadsheet.Value

/-!
Formulas as trees. Every node carries the stretch of text it comes from. What could not be parsed is an
invalid node that says why; `display` writes a tree with every operation in parentheses.
-/

namespace Spreadsheet.Formula

/-- Why a stretch of a formula could not be parsed. -/
inductive Problem
  | malformed (m : Malformation)
  | missingOperand
  | unexpectedToken
  | noArguments (function : String)
  | unclosedArguments (function : String)
  | unclosedBracket
  | emptyParentheses
  | emptyUnionItem
  | emptyArrayElement
  | raggedArray
  | structuredReference
  | tooDeep
  | badArea (area : String)
  | unknownBook (name : String)
  | unknownSheet (name : String)
deriving DecidableEq

namespace Problem

/-- The error that the formula shows. -/
def error : Problem → ErrorValue
  | structuredReference => .name
  | badArea _ | unknownBook _ | unknownSheet _ => .ref
  | _ => .calculation

def message : Problem → String
  | malformed m => m.message
  | missingOperand => "missing operand"
  | unexpectedToken => "unexpected token"
  | noArguments function => "expected '(' after " ++ function
  | unclosedArguments function => "unclosed argument list for " ++ function
  | unclosedBracket => "unclosed bracket"
  | emptyParentheses => "empty parentheses"
  | emptyUnionItem => "empty union item"
  | emptyArrayElement => "empty array element"
  | raggedArray => "array rows differ in length"
  | structuredReference => "structured references are not supported"
  | tooDeep => "formula nested too deeply"
  | badArea area => "invalid reference " ++ area
  | unknownBook name => "unknown workbook " ++ name
  | unknownSheet name => "unknown sheet '" ++ name ++ "'"

end Problem

inductive Literal
  | number (x : Float)
  | text (s : String)
  | boolean (b : Bool)
  | error (e : ErrorValue)

namespace Literal

def value : Literal → Value
  | number x => .number x
  | text s => .text s
  | boolean b => .boolean b
  | error e => .error e

def display : Literal → String
  | number x => Number.plain x
  | text s => Value.quote s
  | boolean b => if b then "TRUE" else "FALSE"
  | error e => e.text

def same (l m : Literal) : Bool := l.value.same m.value

end Literal

inductive Node
  | literal (span : Span) (l : Literal)
  /-- Without a workbook or sheet it refers to the sheet the formula is on. -/
  | reference (span : Span) (book sheet : Option String) (range : Range)
  | name (span : Span) (name : String)
  | unary (span : Span) (op : UnaryOp) (operand : Node)
  | binary (span : Span) (op : BinaryOp) (left right : Node)
  | call (span : Span) (function : String) (args : List Node)
  | array (span : Span) (rows : List (List Node))
  | union (span : Span) (items : List Node)
  /-- An argument left out. -/
  | missing (span : Span)
  | invalid (span : Span) (problem : Problem)
deriving Inhabited

namespace Node

def span : Node → Span
  | literal s _ | reference s _ _ _ | name s _ | unary s _ _ | binary s _ _ _ | call s _ _ | array s _
  | union s _ | missing s | invalid s _ => s

def isInvalid : Node → Bool
  | invalid _ _ => true
  | _ => false

def isMissing : Node → Bool
  | missing _ => true
  | _ => false

mutual

/-- The levels of the tree. -/
def depth : Node → Nat
  | unary _ _ n => n.depth + 1
  | binary _ _ l r => max l.depth r.depth + 1
  | call _ _ args => depthOfAll args + 1
  | array _ rows => depthOfRows rows + 1
  | union _ items => depthOfAll items + 1
  | literal .. | reference .. | name .. | missing .. | invalid .. => 1

def depthOfAll : List Node → Nat
  | [] => 0
  | n :: ns => max n.depth (depthOfAll ns)

def depthOfRows : List (List Node) → Nat
  | [] => 0
  | r :: rs => max (depthOfAll r) (depthOfRows rs)

end

mutual

/-- The nodes of the tree, each before what is below it, in the order of the text. -/
def nodes : Node → List Node
  | unary s op n => unary s op n :: n.nodes
  | binary s op l r => binary s op l r :: (l.nodes ++ r.nodes)
  | call s f args => call s f args :: nodesOfAll args
  | array s rows => array s rows :: nodesOfRows rows
  | union s items => union s items :: nodesOfAll items
  | n => [n]

def nodesOfAll : List Node → List Node
  | [] => []
  | n :: ns => n.nodes ++ nodesOfAll ns

def nodesOfRows : List (List Node) → List Node
  | [] => []
  | r :: rs => nodesOfAll r ++ nodesOfRows rs

end

def firstInvalid? (n : Node) : Option Node := n.nodes.find? isInvalid

/-- The names of all functions that are called. -/
def functionNames (n : Node) : List String :=
  n.nodes.filterMap fun
    | call _ f _ => some f
    | _ => none

def qualifier (book sheet : Option String) : String :=
  (book.map fun b => "[" ++ b ++ "]").getD "" ++ (sheet.map fun s => s ++ "!").getD ""

mutual

/-- The formula in full parentheses, without its equals sign. -/
def display : Node → String
  | literal _ l => l.display
  | reference _ book sheet range => qualifier book sheet ++ range.text
  | name _ s => s
  | unary _ .negate n => "-" ++ n.display
  | unary _ .percent n => n.display ++ "%"
  | binary _ op l r => "(" ++ l.display ++ op.symbol ++ r.display ++ ")"
  | call _ f args => f ++ "(" ++ ",".intercalate (displayAll args) ++ ")"
  | array _ rows => "\x7b" ++ ";".intercalate (displayRows rows) ++ "\x7d"
  | union _ items => "(" ++ ",".intercalate (displayAll items) ++ ")"
  | missing _ => ""
  | invalid _ p => p.error.text

def displayAll : List Node → List String
  | [] => []
  | n :: ns => n.display :: displayAll ns

def displayRows : List (List Node) → List String
  | [] => []
  | r :: rs => ",".intercalate (displayAll r) :: displayRows rs

end

mutual

/-- Equality of spans and structure. -/
def same : Node → Node → Bool
  | literal s l, literal t m => s == t && l.same m
  | reference s b h r, reference t c i q => s == t && b == c && h == i && r == q
  | name s a, name t b => s == t && a == b
  | unary s o n, unary t p m => s == t && o == p && n.same m
  | binary s o l r, binary t p l' r' => s == t && o == p && l.same l' && r.same r'
  | call s f as, call t g bs => s == t && f == g && sameAll as bs
  | array s rs, array t qs => s == t && sameRows rs qs
  | union s as, union t bs => s == t && sameAll as bs
  | missing s, missing t => s == t
  | invalid s p, invalid t q => s == t && p == q
  | _, _ => false

def sameAll : List Node → List Node → Bool
  | [], [] => true
  | n :: ns, m :: ms => n.same m && sameAll ns ms
  | _, _ => false

def sameRows : List (List Node) → List (List Node) → Bool
  | [], [] => true
  | r :: rs, q :: qs => sameAll r q && sameRows rs qs
  | _, _ => false

end

end Node

end Spreadsheet.Formula
