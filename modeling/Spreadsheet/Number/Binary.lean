/-!
Doubles taken apart. A finite double is `mantissa * 2 ^ exponent` with a sign; `num / den` is its
magnitude as a fraction of whole numbers. `orderKey` orders all doubles, infinities and NaNs included.
-/

namespace Spreadsheet.Number

structure Binary where
  negative : Bool
  mantissa : Nat
  exponent : Int
deriving DecidableEq

namespace Binary

/-- Infinities and NaNs are read as if their exponent field were an ordinary one. -/
def ofFloat (x : Float) : Binary :=
  let bits := x.toBits.toNat
  let fraction := bits % Nat.pow 2 52
  let field : Nat := bits / Nat.pow 2 52 % Nat.pow 2 11
  let negative := bits / Nat.pow 2 63 == 1
  if field = 0 then ⟨negative, fraction, -1074⟩ else ⟨negative, Nat.pow 2 52 + fraction, (field : Int) - 1075⟩

def num (b : Binary) : Nat := b.mantissa * Nat.pow 2 b.exponent.toNat

def den (b : Binary) : Nat := Nat.pow 2 (-b.exponent).toNat

end Binary

/-- The whole part of a double; infinities give a whole number beyond every finite double. -/
def truncate (x : Float) : Int :=
  if x.isNaN then 0
  else
    let b := Binary.ofFloat x
    let whole : Int := (b.num / b.den : Nat)
    if b.negative then -whole else whole

/-- The whole part, brought into the range of signed numbers of the given width. -/
def truncateSigned (bits : Nat) (x : Float) : Int :=
  let bound : Int := (Nat.pow 2 (bits - 1) : Nat)
  max (-bound) (min (bound - 1) (truncate x))

def isWhole (x : Float) : Bool :=
  let b := Binary.ofFloat x
  x.isFinite && b.num % b.den == 0

def isNegative (x : Float) : Bool := (Binary.ofFloat x).negative

/-- The double nearest to a whole number. -/
def ofNat (n : Nat) : Float := Float.ofNat n

/-- Negative numbers come before positive ones, `-0` before `0`, and NaNs at both ends by their sign. -/
def orderKey (x : Float) : Int :=
  let bits := x.toBits.toNat
  if bits < Nat.pow 2 63 then bits else -((bits - Nat.pow 2 63 : Nat) : Int) - 1

end Spreadsheet.Number
