import Spreadsheet.Text.Cased
import Spreadsheet.Text.CaseIgnorable
import Spreadsheet.Text.LowerTable
import Spreadsheet.Text.UpperTable

/-!
Upper and lower case of texts. `upper` and `lower` know all scripts and may change the number of
characters (`ß` becomes `SS`); `asciiUpper` touches the letters `a`-`z` only. Names of functions, sheets
and workbooks are compared by `upper`, texts in cells by `lower`, and the keywords of the formula
language by `asciiUpper`.
-/

namespace Spreadsheet.Text

/-- One character's variant, by the sequences first and then by the runs. -/
def mapCase (sequences : List (Nat × List Nat)) (runs : List CaseRun) (c : Char) : List Char :=
  match sequences.lookup c.toNat with
  | some codes => codes.map Char.ofNat
  | none =>
    match runs.findSome? (·.image? c.toNat) with
    | some code => [Char.ofNat code]
    | none => [c]

def upperChar (c : Char) : List Char :=
  if c.toNat < 128 then [c.toUpper] else mapCase upperSequences upperRuns c

def lowerChar (c : Char) : List Char :=
  if c.toNat < 128 then [c.toLower] else mapCase lowerSequences lowerRuns c

def upper (s : String) : String := String.ofList (s.toList.flatMap upperChar)

/-- Does the nearest character that is not case-ignorable have case? -/
def nextIsCased (cs : List Char) : Bool :=
  match cs.dropWhile isCaseIgnorable with
  | [] => false
  | c :: _ => isCased c

/-- A capital sigma at the end of a word becomes `ς`, elsewhere `σ`. `before` is what precedes, nearest
character first. -/
def lowerFrom (before : List Char) : List Char → List Char
  | [] => []
  | c :: rest =>
    let small :=
      if c = 'Σ' then [if nextIsCased before && !nextIsCased rest then 'ς' else 'σ'] else lowerChar c
    small ++ lowerFrom (c :: before) rest

def lower (s : String) : String := String.ofList (lowerFrom [] s.toList)

def asciiUpper (s : String) : String := String.ofList (s.toList.map Char.toUpper)

/-- Equal but for the case of the letters `a`-`z`. -/
def sameLetters (s t : String) : Bool := asciiUpper s == asciiUpper t

theorem upperChar_toUpper (c : Char) : upperChar c.toUpper = upperChar c := by
  by_cases h : c.toNat < 128
  · have small : ∀ n < 128, upperChar (Char.ofNat n).toUpper = upperChar (Char.ofNat n) := by decide
    simpa using small c.toNat h
  · have same : c.toUpper = c := dif_neg fun hc => h (Nat.lt_of_le_of_lt hc.2 (by decide))
    rw [same]

theorem upper_asciiUpper (s : String) : upper (asciiUpper s) = upper s := by
  simp [upper, asciiUpper, List.flatMap_map, upperChar_toUpper]

theorem upper_eq_of_sameLetters {s t : String} (h : sameLetters s t = true) : upper s = upper t := by
  rw [← upper_asciiUpper s, ← upper_asciiUpper t, eq_of_beq h]

end Spreadsheet.Text
