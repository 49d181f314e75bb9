import Spreadsheet.Formula.Node
import Spreadsheet.Formula.TokenTree
import Spreadsheet.NameTable

/-!
Trees of formulas from trees of tokens, by precedence climbing. All binary operators associate to the left;
a prefix `+` leaves no trace; a comma in plain parentheses makes a union. A formula with a syntax error
anywhere is one invalid node, while references that could not be bound stay where they are, so that the
formula can deal with them.
-/

namespace Spreadsheet.Formula

/-- Expressions nest this deep in the parser. -/
def maxNesting : Nat := 128

/-- Trees have this many levels at most; long chains of operators count too. -/
def maxTreeDepth : Nat := 1024

/-- What binds the names in references: the tables, and the workbook that holds unqualified sheets. -/
structure Binder where
  names : NameTable := {}
  book : Option String := none

namespace OperatorSign

def binary? : OperatorSign → Option BinaryOp
  | plus => some .add
  | minus => some .subtract
  | multiply => some .multiply
  | divide => some .divide
  | power => some .power
  | concat => some .concat
  | equal => some .equal
  | notEqual => some .notEqual
  | less => some .less
  | lessEqual => some .lessEqual
  | greater => some .greater
  | greaterEqual => some .greaterEqual
  | colon => some .range
  | intersect => some .intersect
  | percent => none

end OperatorSign

namespace Parse

/-- The nodes between separators, each stretch with the span it lies in. -/
def splitFrom (isSeparator : Token → Bool) (stop : Nat) :
    (start : Nat) → (stretch : List TokenTree) → List TokenTree → List (List TokenTree × Span)
  | start, stretch, [] => [(stretch.reverse, ⟨start, max (stop - 1) start⟩)]
  | start, stretch, .token t s :: ns =>
    if isSeparator t then (stretch.reverse, ⟨start, s.start⟩) :: splitFrom isSeparator stop s.stop [] ns
    else splitFrom isSeparator stop start (.token t s :: stretch) ns
  | start, stretch, n :: ns => splitFrom isSeparator stop start (n :: stretch) ns

def split (isSeparator : Token → Bool) (outer : Span) (nodes : List TokenTree) :
    List (List TokenTree × Span) :=
  splitFrom isSeparator outer.stop (outer.start + 1) [] nodes

def isArgumentSeparator : Token → Bool
  | .argumentSeparator => true
  | _ => false

def isColumnSeparator : Token → Bool
  | .columnSeparator => true
  | _ => false

def isRowSeparator : Token → Bool
  | .rowSeparator => true
  | _ => false

/-- Binds a reference to a workbook and a sheet. -/
def reference (b : Binder) (r : ReferenceToken) (s : Span) : Node :=
  match Range.ofArea? r.area, r.sheet with
  | none, _ => .invalid s (.badArea r.area)
  | some range, none => .reference s none none range
  | some range, some sheet =>
    let book? := match r.book with
      | some name => b.names.bookId? name
      | none => b.book
    match book? with
    | none => .invalid s (.unknownBook (r.book.getD ""))
    | some book =>
      match b.names.sheetId? book sheet with
      | some id => .reference s (some book) (some id) range
      | none => .invalid s (.unknownSheet sheet)

/-- A parser of the expression at the front of sibling nodes that takes operators of at least the given
precedence only; `stop` is where the siblings end. It gives back what it leaves over. -/
abbrev ExprParser := (precedence : Nat) → (stop : Nat) → List TokenTree → Node × List TokenTree

/-- All of the nodes as one expression. -/
def sequence (inner : ExprParser) (nodes : List TokenTree) (span : Span) : Node :=
  match inner 0 span.stop nodes with
  | (node, []) => node
  | (_, extra :: _) => .invalid extra.span .unexpectedToken

/-- Stretches between separators, where an empty one becomes what `empty` says. -/
def stretches (inner : ExprParser) (empty : Span → Node) (parts : List (List TokenTree × Span)) :
    List Node :=
  parts.map fun (nodes, span) => if nodes.isEmpty then empty span else sequence inner nodes span

def array (inner : ExprParser) (children : List TokenTree) (span : Span) : Node :=
  let rows := (split isRowSeparator span children).map fun (nodes, rowSpan) =>
    split isColumnSeparator rowSpan nodes
  match rows.flatten.find? (·.1.isEmpty) with
  | some (_, gap) => .invalid gap .emptyArrayElement
  | none =>
    let width := (rows.head?.map List.length).getD 0
    if rows.any (·.length != width) then .invalid span .raggedArray
    else .array span (rows.map (stretches inner .missing))

def parentheses (inner : ExprParser) (children : List TokenTree) (span : Span) : Node :=
  match split isArgumentSeparator span children with
  | [(nodes, part)] =>
    if nodes.isEmpty then .invalid span .emptyParentheses else sequence inner nodes part
  | parts => .union span (stretches inner (.invalid · .emptyUnionItem) parts)

def group (inner : ExprParser) (kind : GroupKind) (children : List TokenTree) (span : Span)
    (closed : Bool) : Node :=
  if !closed then .invalid span .unclosedBracket
  else match kind with
    | .paren => parentheses inner children span
    | .brace => array inner children span
    | .bracket => .invalid span .structuredReference

def call (inner : ExprParser) (function : String) (children : List TokenTree) (nameSpan span : Span)
    (closed : Bool) : Node :=
  let whole := nameSpan.to span
  if !closed then .invalid whole (.unclosedArguments function)
  else if children.isEmpty then .call whole function []
  else .call whole function (stretches inner .missing (split isArgumentSeparator span children))

/-- An operand with the signs before it. -/
def operand (b : Binder) (inner : ExprParser) (stop : Nat) : List TokenTree → Node × List TokenTree
  | [] => (.invalid ⟨stop, stop⟩ .missingOperand, [])
  | .group kind children span closed :: rest => (group inner kind children span closed, rest)
  | .malformed m span :: rest => (.invalid span (.malformed m), rest)
  | .token t span :: rest =>
    match t with
    | .operator .minus =>
      let (node, rest) := inner UnaryOp.negate.precedence stop rest
      (.unary (span.to node.span) .negate node, rest)
    | .operator .plus => inner UnaryOp.negate.precedence stop rest
    | .number x => (.literal span (.number x), rest)
    | .text s => (.literal span (.text s), rest)
    | .boolean v => (.literal span (.boolean v), rest)
    | .error e => (.literal span (.error e), rest)
    | .reference r => (reference b r span, rest)
    | .name s => (.name span s, rest)
    | .function f =>
      match rest with
      | .group .paren children groupSpan closed :: rest =>
        (call inner f children span groupSpan closed, rest)
      | _ => (.invalid span (.noArguments f), rest)
    | .operator _ | .argumentSeparator | .columnSeparator | .rowSeparator =>
      (.invalid span .unexpectedToken, rest)

/-- The operators after a left operand, as far as their precedence allows. Each step takes one at least of
the `fuel` nodes that are left. -/
def climb (inner : ExprParser) (precedence stop : Nat) :
    (fuel : Nat) → Node → List TokenTree → Node × List TokenTree
  | 0, left, rest => (left, rest)
  | fuel + 1, left, .token (.operator o) span :: rest =>
    match o.binary? with
    | none =>
      if UnaryOp.percent.precedence < precedence then (left, .token (.operator o) span :: rest)
      else climb inner precedence stop fuel (.unary (left.span.to span) .percent left) rest
    | some op =>
      if op.precedence < precedence then (left, .token (.operator o) span :: rest)
      else
        let (right, rest) := inner (op.precedence + 1) stop rest
        climb inner precedence stop fuel (.binary (left.span.to right.span) op left right) rest
  | _, left, rest => (left, rest)

/-- The expression at the front, with at most `nesting` expressions inside one another. -/
def expression (b : Binder) : (nesting : Nat) → ExprParser
  | 0, _, stop, nodes => (.invalid ((nodes.head?.map TokenTree.span).getD ⟨stop, stop⟩) .tooDeep, [])
  | nesting + 1, precedence, stop, nodes =>
    let inner := expression b nesting
    let (left, rest) := operand b inner stop nodes
    climb inner precedence stop rest.length left rest

/-- The span over all nodes. -/
def wholeSpan (nodes : List TokenTree) : Span :=
  match nodes.head?, nodes.getLast? with
  | some first, some last => first.span.to last.span
  | _, _ => ⟨0, 0⟩

/-- The tree before a syntax error in it takes the place of the whole. -/
def unchecked (b : Binder) (nodes : List TokenTree) : Node :=
  sequence (expression b maxNesting) nodes (wholeSpan nodes)

/-- The first problem decides: it takes the place of the whole unless it is an unbound reference. -/
def check (whole : Span) (root : Node) : Node :=
  if maxTreeDepth < root.depth then .invalid whole .tooDeep
  else match root.firstInvalid? with
    | some (.invalid _ p) => if p.error = .ref then root else .invalid whole p
    | _ => root

end Parse

namespace Node

def ofTokens (b : Binder) (nodes : List TokenTree) : Node :=
  Parse.check (Parse.wholeSpan nodes) (Parse.unchecked b nodes)

/-- Parses a formula. -/
def parse (b : Binder) (s : String) (o : Separators := {}) : Node :=
  ofTokens b (TokenTree.ofText o s)

end Node

end Spreadsheet.Formula
