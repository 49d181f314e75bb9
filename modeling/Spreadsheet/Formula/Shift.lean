import Spreadsheet.Formula.TokenTree

/-!
Formula text moved by rows and columns: relative parts of references move along, and a reference that
leaves the sheet becomes `#REF!`. Everything else in the text stays as it is.
-/

namespace Spreadsheet

/-- Moves the relative parts of both corners. -/
def Range.shift? (r : Range) (rows cols : Int) : Option Range := do
  let start ← r.start.shift? rows cols
  let stop ← r.stop.shift? rows cols
  return Range.corners start stop

namespace Formula

open Text

/-- A piece of formula text after the move. The area of a reference stands at its end. -/
def Piece.shift (rows cols : Int) (p : Piece) : List Char :=
  match p.kind with
  | .token (.reference r) =>
    let area := r.area.toList
    match AreaForm.parseChars? area with
    | none => p.chars
    | some (range, form) =>
      match range.shift? rows cols with
      | some moved => p.chars.take (p.chars.length - area.length) ++ form.write moved
      | none => ErrorValue.ref.text.toList
  | _ => p.chars

def shiftChars (o : Separators) (rows cols : Int) (cs : List Char) : List Char :=
  if rows = 0 ∧ cols = 0 then cs
  else
    let moved (cs : List Char) := (TokenTree.pieces o cs).flatMap (Piece.shift rows cols)
    cs.takeWhile isBlank ++
      match cs.dropWhile isBlank with
      | '=' :: rest => '=' :: moved rest
      | rest => moved rest

/-- Moves a formula by rows and columns. -/
def shift (s : String) (rows cols : Int) (o : Separators := {}) : String :=
  String.ofList (shiftChars o rows cols s.toList)

end Formula

end Spreadsheet
