import Spreadsheet.Number.Binary
import Spreadsheet.Number.Decimal

/-!
The shortest decimal that reads back as a given double. The reals that round to the double
`mantissa * 2 ^ exponent` form an interval around it, whose ends belong to it when the mantissa is even.
The coarsest power of ten with a multiple in that interval gives the fewest digits.
-/

namespace Spreadsheet.Number

/-- Which of two equally near decimals is taken: the larger, or the one that ends in an even digit. -/
inductive Tie
  | up
  | even
deriving DecidableEq

namespace Binary

/-- Twice the distance to the next smaller double, in quarters of the last place. -/
def gapBelow (b : Binary) : Nat := if b.mantissa = Nat.pow 2 52 ∧ -1074 < b.exponent then 1 else 2

/-- Does `n * 10 ^ k` round to the magnitude of `b`? -/
def reads (b : Binary) (k : Int) (n : Nat) : Bool :=
  let up := Nat.pow 2 b.exponent.toNat * Nat.pow 10 (-k).toNat
  let down := Nat.pow 2 (-b.exponent).toNat * Nat.pow 10 k.toNat
  let low := (4 * b.mantissa - b.gapBelow) * up
  let high := (4 * b.mantissa + 2) * up
  let at' := 4 * n * down
  if b.mantissa % 2 = 0 then low ≤ at' && at' ≤ high else low < at' && at' < high

/-- The multiple of `10 ^ k` that reads back as `b` and is nearest to it. -/
def multiple? (b : Binary) (tie : Tie) (k : Int) : Option Nat :=
  let up := Nat.pow 2 b.exponent.toNat * Nat.pow 10 (-k).toNat
  let down := Nat.pow 2 (-b.exponent).toNat * Nat.pow 10 k.toNat
  let below := b.mantissa * up / down
  match b.reads k below, b.reads k (below + 1) with
  | true, true =>
    let value := 2 * (b.mantissa * up)
    let middle := (2 * below + 1) * down
    some (if value < middle ∨ (value = middle ∧ tie = .even ∧ below % 2 = 0) then below else below + 1)
  | true, false => some below
  | false, true => some (below + 1)
  | false, false => none

/-- A power of ten above the magnitude of `b`. -/
def ceiling (b : Binary) : Int := (b.mantissa.log2 + b.exponent + 1) * 30103 / 100000 + 1

def shortest (b : Binary) (tie : Tie) : Decimal :=
  if b.mantissa = 0 then ⟨0, 0⟩
  else
    let found := (List.range 20).findSome? fun (i : Nat) =>
      let k := b.ceiling - i
      (b.multiple? tie k).map fun n => Decimal.mk n k
    found.getD ⟨b.mantissa, 0⟩

/-- `places` digits after the point, rounded half to even, as a whole number of those places. -/
def fixedUnits (b : Binary) (places : Nat) : Nat := roundEven (b.num * Nat.pow 10 places) b.den

/-- `count` significant digits, rounded half to even. -/
def significant (b : Binary) (count : Nat) : Decimal :=
  if b.mantissa = 0 then ⟨0, 0⟩
  else
    let num (k : Int) : Nat := b.num * Nat.pow 10 (-k).toNat
    let den (k : Int) : Nat := b.den * Nat.pow 10 k.toNat
    let places := (List.range 4).map fun (i : Nat) => b.ceiling + 1 - count - i
    let k := (places.find? fun k => Nat.pow 10 (count - 1) ≤ num k / den k).getD 0
    let n := roundEven (num k) (den k)
    if n = Nat.pow 10 count then ⟨Nat.pow 10 (count - 1), k + 1⟩ else ⟨n, k⟩

end Binary

end Spreadsheet.Number
