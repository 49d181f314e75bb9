import Spreadsheet.Function.Basic
import Spreadsheet.Number.Binary

/-!
Dates as serial numbers: days since 1899-12-30, which gives every day after February 1900 the number that
the 1900 date system gives it. The time of day is the fraction.
-/

namespace Spreadsheet

structure DateTime where
  year : Int
  month : Nat
  day : Nat
  hour : Nat := 0
  minute : Nat := 0
  second : Nat := 0
deriving DecidableEq

namespace DateTime

def isLeap (year : Int) : Bool := year % 4 = 0 && (year % 100 ≠ 0 || year % 400 = 0)

/-- Days before a month in its year. -/
def daysBefore (year : Int) (month : Nat) : Nat :=
  let lengths := [31, if isLeap year then 29 else 28, 31, 30, 31, 30, 31, 31, 30, 31, 30, 31]
  (lengths.take (month - 1)).foldl (· + ·) 0

/-- Days since the end of the year before the year 1, in the Gregorian calendar. -/
def dayNumber (t : DateTime) : Int :=
  let y := t.year - 1
  365 * y + y / 4 - y / 100 + y / 400 + daysBefore t.year t.month + t.day

/-- The day number of 1899-12-30. -/
def epoch : Int := 693594

def serial (t : DateTime) : Float :=
  let seconds := t.hour * 3600 + t.minute * 60 + t.second
  Float.ofInt (t.dayNumber - epoch) + Number.ofNat seconds / 86400

end DateTime

namespace Function

def dateFunctions : List FunctionDef :=
  [{ name := "NOW", minArgs := 0, maxArgs := some 0, volatile := true,
     run := fun _ site => .answer (.number site.moment) },
   { name := "TODAY", minArgs := 0, maxArgs := some 0, volatile := true,
     run := fun _ site => .answer (.number site.moment.floor) }]

end Function

end Spreadsheet
