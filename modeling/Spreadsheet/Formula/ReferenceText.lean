import Spreadsheet.AreaText
import Spreadsheet.Formula.Token
import Spreadsheet.Text.Numeric
import Spreadsheet.Text.Word

/-!
References in formula text: an optional workbook in brackets, an optional sheet name before `!`, and an
area. Lengths are in characters. `reference?` answers nothing where the text goes on like an identifier
or where the area lies outside every sheet.
-/

namespace Spreadsheet.Formula

open Text

namespace ReferenceText

def markLength (cs : List Char) : Nat := if cs.head? = some '$' then 1 else 0

/-- An optional mark and one to three letters that no further letter follows. -/
def columnLength? (cs : List Char) : Option Nat :=
  let m := markLength cs
  let letters := ((cs.drop m).takeWhile Char.isAlpha).length
  if 1 ≤ letters ∧ letters ≤ 3 then some (m + letters) else none

/-- An optional mark and all digits after it, at least one. -/
def rowLength? (cs : List Char) : Option Nat :=
  let m := markLength cs
  let digits := ((cs.drop m).takeWhile Char.isDigit).length
  if digits = 0 then none else some (m + digits)

def cellLength? (cs : List Char) : Option Nat := do
  let col ← columnLength? cs
  let row ← rowLength? (cs.drop col)
  return col + row

/-- Up to three letters, whatever follows. -/
def columnPrefixLength? (cs : List Char) : Option Nat :=
  let m := markLength cs
  let letters := ((cs.drop m).takeWhile Char.isAlpha).length
  if letters = 0 then none else some (m + min letters 3)

/-- Two parts with a colon between them. -/
def pairLength? (first second : List Char → Option Nat) (cs : List Char) : Option Nat := do
  let a ← first cs
  let ':' :: rest := cs.drop a | none
  let b ← second rest
  return a + 1 + b

/-- The length of the area at the front: cells before columns before rows, two cells before one. -/
def areaLength? (cs : List Char) : Option Nat :=
  pairLength? cellLength? cellLength? cs <|> cellLength? cs <|>
    pairLength? columnLength? columnPrefixLength? cs <|> pairLength? rowLength? rowLength? cs

/-- The name in quotes after an opening quote, where a doubled quote stands for one, and the rest. -/
def quoted? : List Char → Option (List Char × List Char)
  | [] => none
  | '\'' :: '\'' :: cs => (quoted? cs).map fun (name, rest) => ('\'' :: name, rest)
  | '\'' :: cs => some ([], cs)
  | c :: cs => (quoted? cs).map fun (name, rest) => (c :: name, rest)

/-- A sheet name with its `!`, and the rest. -/
def sheet? (cs : List Char) : Option (List Char × List Char) :=
  match cs with
  | [] => none
  | c :: after =>
    if c = '\'' then
      match quoted? after with
      | some (name, '!' :: rest) => if name = [] then none else some (name, rest)
      | _ => none
    else if c.isAlpha || c == '_' || c == '\\' then
      let isPart := fun c => isWordChar c || c == '.'
      match after.dropWhile isPart with
      | '!' :: rest => some (c :: after.takeWhile isPart, rest)
      | _ => none
    else none

/-- A workbook name in brackets, and the rest. -/
def book? : List Char → Option (List Char × List Char)
  | '[' :: cs =>
    match cs.dropWhile (· != ']') with
    | [] => none
    | _ :: rest =>
      let name := cs.takeWhile (· != ']')
      if name = [] then none else some (name, rest)
  | _ => none

/-- A workbook in brackets may also stand at the front of the quoted sheet name. -/
def splitBook (sheet : List Char) : Option (List Char × List Char) :=
  match sheet with
  | '[' :: cs =>
    match cs.dropWhile (· != ']') with
    | [] => none
    | _ :: name => some (cs.takeWhile (· != ']'), name)
  | _ => none

/-- May a reference end before this rest of the text? -/
def endsBefore (rest : List Char) : Bool :=
  match rest with
  | [] => true
  | c :: _ => !(isAlphabetic c || isNumeric c || c == '_' || c == '.' || c == '(' || c == '!' || c == '$')

/-- The area at the front, if it names a range and a reference may end there. -/
def area? (cs : List Char) : Option (List Char) := do
  let n ← areaLength? cs
  let area := cs.take n
  if endsBefore (cs.drop n) && (AreaForm.parseChars? area).isSome then some area else none

def token (book sheet : Option (List Char)) (area : List Char) : ReferenceToken :=
  { book := book.map String.ofList, sheet := sheet.map String.ofList, area := String.ofList area }

/-- A reference to a sheet of the given workbook, with its length without the workbook. -/
def onSheet? (book : Option (List Char)) (cs : List Char) : Option (ReferenceToken × Nat) := do
  let (sheet, rest) ← sheet? cs
  let area ← area? rest
  let length := cs.length - rest.length + area.length
  match book, splitBook sheet with
  | none, some (book, sheet) => return (token (some book) (some sheet) area, length)
  | _, _ => return (token book (some sheet) area, length)

end ReferenceText

open ReferenceText

/-- The reference at the front of a text and its length. -/
def reference? (cs : List Char) : Option (ReferenceToken × Nat) :=
  match book? cs with
  | some (book, rest) =>
    (onSheet? (some book) rest).map fun (r, n) => (r, cs.length - rest.length + n)
  | none =>
    match sheet? cs with
    | some (_, rest) =>
      if (areaLength? rest).isSome then onSheet? none cs
      else (area? cs).map fun area => (token none none area, area.length)
    | none => (area? cs).map fun area => (token none none area, area.length)

end Spreadsheet.Formula
