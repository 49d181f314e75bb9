/-!
Decimals `digits * 10 ^ exponent`, the rounding that produces them, and their written forms: positional
(`0.0012`) and scientific (`1.2e-3`).
-/

namespace Spreadsheet.Number

/-- `num / den` rounded to a whole number; a half goes to the even neighbour. -/
def roundEven (num den : Nat) : Nat :=
  let q := num / den
  let r := num % den
  if 2 * r < den ∨ (2 * r = den ∧ q % 2 = 0) then q else q + 1

structure Decimal where
  digits : Nat
  exponent : Int
deriving DecidableEq

namespace Decimal

/-- The digits written out, without a sign or a point. -/
def chars (d : Decimal) : List Char := Nat.toDigits 10 d.digits

/-- The power of ten of the first digit. -/
def leading (d : Decimal) : Int := d.chars.length - 1 + d.exponent

/-- The point stands `before` places after the first digit; zeros fill what is missing. -/
def pointAfter (before : Int) (cs : List Char) : List Char :=
  if before ≤ 0 then '0' :: '.' :: (List.replicate (-before).toNat '0' ++ cs)
  else if before < cs.length then cs.take before.toNat ++ '.' :: cs.drop before.toNat
  else cs ++ List.replicate (before - cs.length).toNat '0'

def positional (d : Decimal) : List Char :=
  if d.digits = 0 then ['0'] else pointAfter (d.leading + 1) d.chars

/-- One digit before the point, the others after it. -/
def mantissaChars (d : Decimal) : List Char := pointAfter 1 d.chars

/-- The sign `plus` stands before a power that is not negative. -/
def scientific (d : Decimal) (plus : List Char) : List Char :=
  d.mantissaChars ++ 'e' :: ((if d.leading < 0 then ['-'] else plus) ++ Nat.toDigits 10 d.leading.natAbs)

end Decimal

/-- Zeros at the end of a fraction go, and a point with nothing after it goes too. -/
def trimFraction (cs : List Char) : List Char :=
  if cs.contains '.' then
    let kept := cs.reverse.dropWhile (· == '0')
    (if kept.head? = some '.' then kept.tail else kept).reverse
  else cs

end Spreadsheet.Number
