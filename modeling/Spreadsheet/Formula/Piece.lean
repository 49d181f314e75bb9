import Spreadsheet.Formula.ReferenceText
import Spreadsheet.Number.Read

/-!
Formula text cut into pieces: blanks, tokens, brackets and stretches that are none of these. What a
character means depends on the brackets that are open before it and on whether an operand has just ended.
The pieces of a text put together again are the text.
-/

namespace Spreadsheet.Formula

open Text

/-- Brackets nest this deep and no deeper. -/
def maxGroupDepth : Nat := 512

/-- What precedes a character: the open brackets, innermost first. -/
structure Context where
  opened : List GroupKind := []
  afterOperand : Bool := false

inductive PieceKind
  | blank
  | token (t : Token)
  | malformed (m : Malformation)
  | opening (k : GroupKind)
  /-- Closes the innermost open bracket. -/
  | closing

structure Piece where
  kind : PieceKind
  chars : List Char

namespace Piece

/-- A kind of piece, and how many characters it takes after its first one. -/
abbrev Cut := PieceKind × Nat

def isIdentifierChar (c : Char) : Bool :=
  isAlphabetic c || isNumeric c || c == '_' || c == '.' || c == '\\'

/-- Blanks between two operands are the intersection operator. -/
def blanks (ctx : Context) (rest : List Char) : Cut :=
  let n := (rest.takeWhile isBlank).length
  let operandFollows := match rest.dropWhile isBlank with
    | [] => false
    | c :: _ => isAlphabetic c || isNumeric c || c == '$' || c == '\'' || c == '(' || c == '_' || c == '['
  if ctx.afterOperand && operandFollows then (.token (.operator .intersect), n) else (.blank, n)

/-- The text after an opening quote, where a doubled quote stands for one, and its length with the closing
quote. -/
def quotedText? : List Char → Option (List Char × Nat)
  | [] => none
  | '"' :: '"' :: cs => (quotedText? cs).map fun (s, n) => ('"' :: s, n + 2)
  | '"' :: _ => some ([], 1)
  | c :: cs => (quotedText? cs).map fun (s, n) => (c :: s, n + 1)

def text (rest : List Char) : Cut :=
  match quotedText? rest with
  | some (s, n) => (.token (.text (String.ofList s)), n)
  | none => (.malformed .unterminatedText, rest.length)

def startsWithError (cs : List Char) (e : ErrorValue) : Bool :=
  (cs.take e.text.length).map Char.toUpper == e.text.toList

def errorText (rest : List Char) : Cut :=
  match ErrorValue.all.find? (startsWithError ('#' :: rest)) with
  | some e => (.token (.error e), e.text.length - 1)
  | none =>
    let n := (rest.takeWhile fun c =>
      isAlphabetic c || isNumeric c || c == '/' || c == '!' || c == '?' || c == '_').length
    (.malformed .unknownError, n)

/-- The fraction after the whole digits: what it adds to the number's text, and its length. A point with
no digit after it belongs to a number only if it is the plain point. -/
def fraction (decimal : Char) (cs : List Char) : List Char × Nat :=
  match cs with
  | [] => ([], 0)
  | c :: rest =>
    if c = decimal then
      let ds := rest.takeWhile Char.isDigit
      if ds ≠ [] then ('.' :: ds, ds.length + 1)
      else ([], if decimal = '.' then 1 else 0)
    else ([], 0)

/-- The power after a number, if digits follow its `e`. -/
def power (cs : List Char) : List Char × Nat :=
  match cs with
  | e :: rest =>
    let (sign, rest) := match rest with
      | '+' :: r => (['+'], r)
      | '-' :: r => (['-'], r)
      | r => ([], r)
    let ds := rest.takeWhile Char.isDigit
    if (e = 'e' ∨ e = 'E') ∧ ds ≠ [] then ('e' :: sign ++ ds, 1 + sign.length + ds.length) else ([], 0)
  | [] => ([], 0)

def number (o : Separators) (cs : List Char) : Cut :=
  let whole := cs.takeWhile Char.isDigit
  let cs := cs.drop whole.length
  let (fractionText, fractionLength) := fraction o.decimal cs
  let (powerText, powerLength) := power (cs.drop fractionLength)
  let n := whole.length + fractionLength + powerLength - 1
  match Number.float? (String.ofList (whole ++ fractionText ++ powerText)) with
  | some x => if x.isFinite then (.token (.number x), n) else (.malformed .badNumber, n)
  | none => (.malformed .badNumber, n)

/-- The reference at the front, or else another piece. -/
def referenceOr (cs : List Char) (other : Cut) : Cut :=
  match reference? cs with
  | some (r, n) => (.token (.reference r), n - 1)
  | none => other

def identifier (cs : List Char) : Cut :=
  let name := cs.takeWhile isIdentifierChar
  let n := name.length - 1
  let word := String.ofList name
  if (cs.drop name.length).head? = some '(' then (.token (.function (upper word)), n)
  else referenceOr cs <|
    if sameLetters word "TRUE" then (.token (.boolean true), n)
    else if sameLetters word "FALSE" then (.token (.boolean false), n)
    else (.token (.name word), n)

def operatorSign (c : Char) (rest : List Char) : Cut :=
  let sign (o : OperatorSign) (n : Nat) : Cut := (.token (.operator o), n)
  match c, rest with
  | '<', '>' :: _ => sign .notEqual 1
  | '<', '=' :: _ => sign .lessEqual 1
  | '>', '=' :: _ => sign .greaterEqual 1
  | '+', _ => sign .plus 0
  | '-', _ => sign .minus 0
  | '*', _ => sign .multiply 0
  | '/', _ => sign .divide 0
  | '^', _ => sign .power 0
  | '%', _ => sign .percent 0
  | '&', _ => sign .concat 0
  | '=', _ => sign .equal 0
  | '<', _ => sign .less 0
  | '>', _ => sign .greater 0
  | ':', _ => sign .colon 0
  | _, _ => (.malformed (.stray c), 0)

def opening (ctx : Context) (k : GroupKind) : PieceKind :=
  if maxGroupDepth ≤ ctx.opened.length then .malformed .tooDeep else .opening k

def closing (ctx : Context) (c : Char) : PieceKind :=
  match ctx.opened with
  | k :: _ => if k.closer = c then .closing else .malformed (.unmatched c)
  | [] => .malformed (.unmatched c)

/-- The piece that starts with the character `c`. -/
def cut (o : Separators) (ctx : Context) (c : Char) (rest : List Char) : Cut :=
  let inBrace := ctx.opened.head? == some .brace
  if isBlank c then blanks ctx rest
  else if inBrace && c == o.arrayColumn then (.token .columnSeparator, 0)
  else if inBrace && c == o.arrayRow then (.token .rowSeparator, 0)
  else if c = o.argument then (.token .argumentSeparator, 0)
  else match c with
    | '"' => text rest
    | '#' => errorText rest
    | '(' => (opening ctx .paren, 0)
    | '\x7b' => (opening ctx .brace, 0)
    | '[' =>
      if maxGroupDepth ≤ ctx.opened.length then (.malformed .tooDeep, 0)
      else referenceOr (c :: rest) (.opening .bracket, 0)
    | ')' => (closing ctx c, 0)
    | '\x7d' => (closing ctx c, 0)
    | ']' => (closing ctx c, 0)
    | '\'' => referenceOr (c :: rest) (.malformed .unqualifiedSheet, rest.length)
    | '$' => referenceOr (c :: rest) (.malformed .strayMark, 0)
    | _ =>
      if c.isDigit then referenceOr (c :: rest) (number o (c :: rest))
      else if c == o.decimal && (rest.head?.map Char.isDigit).getD false then number o (c :: rest)
      else if isAlphabetic c || c == '_' || c == '\\' then identifier (c :: rest)
      else operatorSign c rest

/-- What precedes the character after a piece. -/
def advance (ctx : Context) : PieceKind → Context
  | .blank => ctx
  | .token t => { ctx with afterOperand := t.endsOperand }
  | .malformed _ => { ctx with afterOperand := false }
  | .opening k => { opened := k :: ctx.opened, afterOperand := false }
  | .closing => { opened := ctx.opened.tail, afterOperand := true }

/-- The pieces of a text of at most `fuel` characters. -/
def scan (o : Separators) : (fuel : Nat) → Context → List Char → List Piece
  | 0, _, _ => []
  | _, _, [] => []
  | fuel + 1, ctx, c :: rest =>
    let (kind, n) := cut o ctx c rest
    ⟨kind, c :: rest.take n⟩ :: scan o fuel (advance ctx kind) (rest.drop n)

/-- Put together again, the pieces are the text. -/
theorem flatMap_scan (o : Separators) (fuel : Nat) (ctx : Context) (cs : List Char)
    (h : cs.length ≤ fuel) : (scan o fuel ctx cs).flatMap Piece.chars = cs := by
  induction fuel generalizing ctx cs with
  | zero => simpa [scan] using (List.eq_nil_of_length_eq_zero (by omega)).symm
  | succ fuel ih =>
    cases cs with
    | nil => simp [scan]
    | cons c rest =>
      have hl : (rest.drop (cut o ctx c rest).2).length ≤ fuel := by
        simp only [List.length_cons] at h
        simp only [List.length_drop]
        omega
      simp [scan, ih _ _ hl]

end Piece

end Spreadsheet.Formula
