import Spreadsheet.Formula.Piece
import Spreadsheet.Text.Length

/-!
Formula text as a tree: tokens, nested by the brackets around them. Every text has a tree; what cannot be
read stays in it as a malformed node, and a bracket that is never closed makes a group up to the end.
-/

namespace Spreadsheet.Formula

open Text

inductive TokenTree
  | token (t : Token) (span : Span)
  | group (kind : GroupKind) (children : List TokenTree) (span : Span) (closed : Bool)
  | malformed (m : Malformation) (span : Span)

namespace TokenTree

def span : TokenTree → Span
  | token _ s => s
  | group _ _ s _ => s
  | malformed _ s => s

/-- A bracket that is open: where it stands, and the nodes before it on its own level, last first. -/
structure OpenGroup where
  kind : GroupKind
  start : Nat
  before : List TokenTree

/-- Groups still open at the end reach up to there. -/
def closeAll (stop : Nat) : List OpenGroup → List TokenTree → List TokenTree
  | [], level => level.reverse
  | g :: opened, level => closeAll stop opened (.group g.kind level.reverse ⟨g.start, stop⟩ false :: g.before)

/-- Nests pieces. `level` holds the nodes of the innermost open group, last first, and `pos` is where the
next piece starts. -/
def nest : List OpenGroup → (level : List TokenTree) → (pos : Nat) → List Piece → List TokenTree
  | opened, level, pos, [] => closeAll pos opened level
  | opened, level, pos, p :: pieces =>
    let next := pos + byteLength p.chars
    match p.kind, opened with
    | .blank, _ => nest opened level next pieces
    | .token t, _ => nest opened (.token t ⟨pos, next⟩ :: level) next pieces
    | .malformed m, _ => nest opened (.malformed m ⟨pos, next⟩ :: level) next pieces
    | .opening k, _ => nest (⟨k, pos, level⟩ :: opened) [] next pieces
    | .closing, g :: opened =>
      nest opened (.group g.kind level.reverse ⟨g.start, next⟩ true :: g.before) next pieces
    | .closing, [] => nest [] level next pieces

/-- The pieces of the text after its equals sign. -/
def pieces (o : Separators) (cs : List Char) : List Piece := Piece.scan o cs.length {} cs

/-- The tree of a formula. Blanks may stand before its equals sign. -/
def ofChars (o : Separators) (cs : List Char) : List TokenTree :=
  let leading := byteLength (cs.takeWhile isBlank)
  match cs.dropWhile isBlank with
  | '=' :: rest => nest [] [] (leading + 1) (pieces o rest)
  | rest => nest [] [.malformed .noEquals ⟨leading, leading⟩] leading (pieces o rest)

def ofText (o : Separators) (s : String) : List TokenTree := ofChars o s.toList

mutual

/-- The tokens in the order of the text. -/
def tokens : TokenTree → List (Token × Span)
  | token t s => [(t, s)]
  | group _ children _ _ => tokensIn children
  | malformed _ _ => []

def tokensIn : List TokenTree → List (Token × Span)
  | [] => []
  | n :: ns => n.tokens ++ tokensIn ns

end

mutual

def wellFormed : TokenTree → Bool
  | token _ _ => true
  | group _ children _ closed => closed && allWellFormed children
  | malformed _ _ => false

/-- Nothing malformed, and every bracket closed. -/
def allWellFormed : List TokenTree → Bool
  | [] => true
  | n :: ns => n.wellFormed && allWellFormed ns

end

end TokenTree

end Spreadsheet.Formula
