import Spreadsheet.Text.Blank
import Spreadsheet.Text.Length

/-!
Cell addresses in A1 notation. Rows and columns count from zero; a `$` before the letters or the digits
fixes the column or the row when a formula is moved. `Address.parse` reads exactly the texts that, blanks
aside, are an optional `$`, up to three letters, an optional `$` and digits, within the sheet limits.
-/

namespace Spreadsheet

open Text

def maxRows : Nat := 1048576
def maxCols : Nat := 16384

/-- Why a text is no address. -/
inductive AddressError
  | noLetters (text : String)
  | badLetters (letters : String)
  | badLetter (letter : Char)
  | columnBeyond (column : Nat)
  | badRow (text : String)
deriving DecidableEq

def AddressError.message : AddressError → String
  | noLetters text => "Invalid cell address: no column letters in '" ++ text ++ "'"
  | badLetters letters => "Invalid cell address: invalid column letters '" ++ letters ++ "'"
  | badLetter letter => "Invalid cell address: invalid column letter '" ++ letter.toString ++ "'"
  | columnBeyond column =>
    "Column index " ++ toString column ++ " out of bounds (max: " ++ toString (maxCols - 1) ++ ")"
  | badRow text => "Invalid cell address: invalid row number in '" ++ text ++ "'"

structure Address where
  row : Nat
  col : Nat
  rowFixed : Bool := false
  colFixed : Bool := false
deriving DecidableEq, Inhabited

namespace Address

/-- The letters of a column, with at most `fuel` of them: `A` to `Z`, then `AA`, `AB`, …. -/
def lettersWithin : (fuel : Nat) → (col : Nat) → List Char
  | 0, _ => []
  | fuel + 1, col =>
    let last := Char.ofNat (65 + col % 26)
    if col < 26 then [last] else lettersWithin fuel (col / 26 - 1) ++ [last]

def columnLetters (col : Nat) : List Char := lettersWithin (col + 1) col

/-- The value of a letter as a digit from 1 to 26. -/
def letterValue (c : Char) : Nat := c.toUpper.toNat - 64

def columnOfLetters (cs : List Char) : Except AddressError Nat :=
  if cs = [] ∨ 3 < byteLength cs then .error (.badLetters (String.ofList cs))
  else
    match cs.find? (!·.isAlpha) with
    | some c => .error (.badLetter c)
    | none =>
      let col := cs.foldl (fun n c => n * 26 + letterValue c) 0 - 1
      if col < maxCols then .ok col else .error (.columnBeyond col)

/-- The row of a one-based row number written in digits. -/
def rowOfDigits? (cs : List Char) : Option Nat :=
  if cs = [] ∨ !cs.all Char.isDigit then none
  else
    let row := Nat.ofDigitChars 10 cs 0
    if 1 ≤ row ∧ row ≤ maxRows then some (row - 1) else none

/-- A `$` at the front, and the rest. -/
def takeMark : List Char → Bool × List Char
  | '$' :: cs => (true, cs)
  | cs => (false, cs)

def parseChars (s : List Char) : Except AddressError Address := do
  let cs := trimChars s
  let (colFixed, rest) := takeMark cs
  let letters := rest.takeWhile Char.isAlpha
  if letters = [] then throw (.noLetters (String.ofList cs))
  let col ← columnOfLetters letters
  let (rowFixed, digits) := takeMark (rest.dropWhile Char.isAlpha)
  match rowOfDigits? digits with
  | none => throw (.badRow (String.ofList cs))
  | some row => return { row, col, rowFixed, colFixed }

def parse (s : String) : Except AddressError Address := parseChars s.toList

def mark (fixed : Bool) : List Char := if fixed then ['$'] else []

def rowDigits (row : Nat) : List Char := Nat.toDigits 10 (row + 1)

def chars (a : Address) : List Char :=
  mark a.colFixed ++ columnLetters a.col ++ (mark a.rowFixed ++ rowDigits a.row)

/-- The address in A1 notation. -/
def text (a : Address) : String := String.ofList a.chars

/-- The relative parts move by the given rows and columns; nothing, if that leaves the sheet. -/
def shift? (a : Address) (rows cols : Int) : Option Address :=
  let row : Int := if a.rowFixed then a.row else a.row + rows
  let col : Int := if a.colFixed then a.col else a.col + cols
  if 0 ≤ row ∧ row < maxRows ∧ 0 ≤ col ∧ col < maxCols then
    some { a with row := row.toNat, col := col.toNat }
  else
    none

def samePosition (a b : Address) : Bool := a.row == b.row && a.col == b.col

/-- By row, then column, then the marks. -/
def order (a b : Address) : Ordering :=
  compare a.row b.row |>.then <| compare a.col b.col |>.then <|
    compare a.rowFixed.toNat b.rowFixed.toNat |>.then <| compare a.colFixed.toNat b.colFixed.toNat

def onSheet (a : Address) : Prop := a.row < maxRows ∧ a.col < maxCols

instance (a : Address) : Decidable a.onSheet := inferInstanceAs (Decidable (_ ∧ _))

end Address

end Spreadsheet
