import Spreadsheet.Text.Case

/-!
The errors that cells can show. `code` is what hosts draw them by, `typeNumber` what `ERROR.TYPE` answers.
-/

namespace Spreadsheet

open Text

inductive ErrorValue
  | null
  | divZero
  | value
  | ref
  | name
  | num
  | notAvailable
  | spill
  | calculation
  | cycle
deriving DecidableEq, Inhabited

namespace ErrorValue

def all : List ErrorValue :=
  [null, divZero, value, ref, name, num, notAvailable, spill, calculation, cycle]

def text : ErrorValue → String
  | null => "#NULL!"
  | divZero => "#DIV/0!"
  | value => "#VALUE!"
  | ref => "#REF!"
  | name => "#NAME?"
  | num => "#NUM!"
  | notAvailable => "#N/A"
  | spill => "#SPILL!"
  | calculation => "#CALC!"
  | cycle => "#CYCLE!"

/-- Reads the text of an error in either case. -/
def ofText? (s : String) : Option ErrorValue := all.find? fun e => e.text == asciiUpper s

def code : ErrorValue → Nat
  | null => 0x00
  | divZero => 0x07
  | value => 0x0F
  | ref => 0x17
  | name => 0x1D
  | num => 0x24
  | notAvailable => 0x2A
  | spill => 0x2C
  | calculation => 0x2D
  | cycle => 0x2E

def typeNumber : ErrorValue → Nat
  | null => 1
  | divZero => 2
  | value => 3
  | ref => 4
  | name => 5
  | num => 6
  | notAvailable => 7
  | spill => 9
  | calculation => 14
  | cycle => 15

theorem mem_all (e : ErrorValue) : e ∈ all := by cases e <;> decide

end ErrorValue

end Spreadsheet
