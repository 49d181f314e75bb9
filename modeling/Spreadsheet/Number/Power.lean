/-!
Whole powers of a double by repeated squaring. The order of the multiplications decides the last bit of
the result.
-/

namespace Spreadsheet.Number

/-- `acc * base ^ n`, where `fuel` bounds the number of binary digits of `n`. -/
def squareAndMultiply : (fuel : Nat) → (acc base : Float) → (n : Nat) → Float
  | 0, acc, _, _ => acc
  | fuel + 1, acc, base, n =>
    let acc := if n % 2 = 1 then acc * base else acc
    if n / 2 = 0 then acc else squareAndMultiply fuel acc (base * base) (n / 2)

/-- A negative power is the reciprocal of the positive one. -/
def powWhole (base : Float) (n : Int) : Float :=
  let p := squareAndMultiply (n.natAbs.log2 + 1) 1 base n.natAbs
  if n < 0 then 1 / p else p

end Spreadsheet.Number
