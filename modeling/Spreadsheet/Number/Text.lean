import Spreadsheet.Number.Shortest

/-!
How numbers are written. `plain` is the shortest text that reads back, always positional; `cell` is the
text of a number in a cell, with at most fifteen significant digits; `Style.write` is the shortest text that
turns to scientific form outside a band of magnitudes.
-/

namespace Spreadsheet.Number

def signed (x : Float) (magnitude : List Char) : String :=
  String.ofList (if isNegative x then '-' :: magnitude else magnitude)

/-- Texts of the doubles that are no numbers. -/
def special (x : Float) : String := if x.isNaN then "NaN" else signed x "inf".toList

def plain (x : Float) : String :=
  if x.isFinite then signed x ((Binary.ofFloat x).shortest .up).positional else special x

/-- Positional between two leading powers of ten, and there with a point even after whole numbers; outside
with `plus` before a power that is not negative. -/
structure Style where
  lowest : Int
  highest : Int
  tie : Tie
  plus : List Char

def Style.write (style : Style) (x : Float) : String :=
  if x.isFinite then
    let d := (Binary.ofFloat x).shortest style.tie
    if d.digits = 0 ∨ (style.lowest ≤ d.leading ∧ d.leading ≤ style.highest) then
      let cs := d.positional
      signed x (if cs.contains '.' then cs else cs ++ ['.', '0'])
    else signed x (d.scientific style.plus)
  else special x

/-- Numbers in a listing of tokens. -/
def tokenStyle : Style := ⟨-4, 15, .up, []⟩

/-- Numbers in JSON. -/
def jsonStyle : Style := ⟨-5, 15, .even, ['+']⟩

/-- Exactly `places` digits after the point. -/
def fixed (x : Float) (places : Nat) : List Char :=
  let d : Decimal := ⟨(Binary.ofFloat x).fixedUnits places, -places⟩
  if places = 0 then d.chars else Decimal.pointAfter (d.chars.length - places) d.chars

/-- A number in a cell's text: whole numbers below `10 ^ 15` in full, others with fifteen significant
digits and no zeros at the end; from `10 ^ 15` up and below `10 ^ -10` in the form `1.5E+20`. -/
def cell (x : Float) : String :=
  if x == 0 then "0"
  else if !x.isFinite then special x
  else if isWhole x && x.abs < 1e15 then toString (truncate x)
  else
    let d := (Binary.ofFloat x).significant 15
    let e := d.leading
    if -10 ≤ e ∧ e < 15 then
      let y := Float.ofScientific d.digits (d.exponent < 0) d.exponent.natAbs
      signed x (trimFraction (fixed y (min (14 - e).toNat 20)))
    else
      let power := Nat.toDigits 10 e.natAbs
      signed x (trimFraction d.mantissaChars ++ 'E' :: (if e < 0 then '-' else '+') ::
        (List.replicate (2 - power.length) '0' ++ power))

end Spreadsheet.Number
