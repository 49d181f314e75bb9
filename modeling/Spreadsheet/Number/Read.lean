import Spreadsheet.Number.Binary
import Spreadsheet.Text.Blank

/-!
Reading numbers. `float?` reads the decimal notation of doubles, infinities and NaN included; `entry?`
reads a number the way it is typed into a cell, where a percent sign divides by a hundred.
-/

namespace Spreadsheet.Number

open Spreadsheet.Text

/-- The double nearest to `digits * 10 ^ exponent`. Beyond four hundred places in either direction the
result is infinite or zero whatever the digits are. -/
def ofDecimal (digits : Nat) (exponent : Int) : Float :=
  let leading := (Nat.toDigits 10 digits).length + exponent
  if digits = 0 ∨ leading < -400 then 0
  else if 400 < leading then 1 / 0
  else Float.ofScientific digits (exponent < 0) exponent.natAbs

def natOfDigits (cs : List Char) : Nat := Nat.ofDigitChars 10 cs 0

/-- The power after an `e`: an optional sign and at least one digit, to the end. -/
def power? (cs : List Char) : Option Int :=
  let (negative, digits) := match cs with
    | '-' :: rest => (true, rest)
    | '+' :: rest => (false, rest)
    | _ => (false, cs)
  if digits = [] ∨ !digits.all Char.isDigit then none
  else some (if negative then -natOfDigits digits else natOfDigits digits)

/-- Digits with an optional fraction and power; a digit must stand on one side of the point. -/
def unsigned? (cs : List Char) : Option Float :=
  let whole := cs.takeWhile Char.isDigit
  let afterWhole := cs.dropWhile Char.isDigit
  let (fraction, afterFraction) := match afterWhole with
    | '.' :: rest => (rest.takeWhile Char.isDigit, rest.dropWhile Char.isDigit)
    | _ => ([], afterWhole)
  let digits := whole ++ fraction
  let scaled (power : Int) := ofDecimal (natOfDigits digits) (power - fraction.length)
  if digits = [] then none
  else match afterFraction with
    | [] => some (scaled 0)
    | c :: rest => if c = 'e' ∨ c = 'E' then (power? rest).map scaled else none

def named? (cs : List Char) : Option Float :=
  let name := String.ofList (cs.map Char.toLower)
  if name = "inf" ∨ name = "infinity" then some (1 / 0)
  else if name = "nan" then some (0 / 0)
  else none

def float? (s : String) : Option Float :=
  let magnitude? (cs : List Char) := (named? cs).or (unsigned? cs)
  match s.toList with
  | '-' :: rest => (magnitude? rest).map (- ·)
  | '+' :: rest => magnitude? rest
  | cs => magnitude? cs

/-- A number as typed into a cell. Letters other than the `e` of a power make it no number, except before
a percent sign, where every spelling of a double counts. -/
def entry? (s : String) : Option Float :=
  let cs := trimChars s.toList
  if cs = [] then none
  else if cs.getLast? = some '%' then
    (float? (String.ofList (trimChars cs.dropLast))).map (· / 100)
  else if cs.any fun c => c.isAlpha && c != 'e' && c != 'E' then none
  else (float? (String.ofList cs)).filter Float.isFinite

end Spreadsheet.Number
