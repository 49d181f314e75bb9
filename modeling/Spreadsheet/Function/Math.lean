import Spreadsheet.Arithmetic
import Spreadsheet.Function.Basic
import Spreadsheet.Number.Power

/-!
Sums and other aggregates, rounding, and elementary arithmetic. An aggregate coerces what it is given
directly and fails on what is no number; inside arrays it takes numbers only and skips the rest.
-/

namespace Spreadsheet.Function

def numbersInItems : List Value → Except ErrorValue (List Float)
  | [] => .ok []
  | .number x :: vs => (numbersInItems vs).map (x :: ·)
  | .error e :: _ => .error e
  | _ :: vs => numbersInItems vs

/-- The numbers of an aggregate. -/
def numbers : List Value → Except ErrorValue (List Float)
  | [] => .ok []
  | .array g :: vs => do return (← numbersInItems g.items) ++ (← numbers vs)
  | .error e :: _ => .error e
  | .blank :: vs => numbers vs
  | v :: vs =>
    match v.number? with
    | some x => (numbers vs).map (x :: ·)
    | none => .error .value

def total (xs : List Float) : Float := xs.foldl (· + ·) (-0.0)

def sum (args : List Value) : Value := .ofExcept do return .number (total (← numbers args))

def average (args : List Value) : Value := .ofExcept do
  let xs ← numbers args
  return if xs.isEmpty then .error .divZero else .number (total xs / Number.ofNat xs.length)

/-- The smaller number, the second of two equal ones (zeros differ in sign); what is no number gives way. -/
def smaller (x y : Float) : Float := if y.isNaN ∨ x < y then x else y

/-- The larger number; equal ones and what is no number are treated as by `smaller`. -/
def larger (x y : Float) : Float := if y.isNaN ∨ y < x then x else y

/-- The numbers combined from the left; zero if there are none. -/
def reduce (f : Float → Float → Float) (args : List Value) : Value := .ofExcept do
  return .number <| match ← numbers args with
    | [] => 0
    | x :: xs => xs.foldl f x

def product (args : List Value) : Value := .ofExcept do
  let xs ← numbers args
  return .number (if xs.isEmpty then 0 else xs.foldl (· * ·) 1)

def countIn : Value → Nat
  | .array g => g.items.countP Value.isNumber
  | .number _ | .boolean _ => 1
  | .text s => if (Number.entry? s).isSome then 1 else 0
  | _ => 0

def count (args : List Value) : Value := .number (Number.ofNat (args.foldl (fun n v => n + countIn v) 0))

/-- Counts what is not blank, errors too. -/
def countAll (args : List Value) : Value :=
  .number (Number.ofNat ((flatten args).countP (!·.isBlank)))

/-- Rounds to a number of places, a half away from zero. -/
def round (args : List Value) : Value := .ofExcept do
  let x ← numberArg args 0
  let places := Number.truncateSigned 32 (← numberArg args 1)
  let scale := Number.powWhole 10 places
  return .ofFinite <|
    if 0 ≤ x then (x * scale + 0.5).floor / scale else (x * scale - 0.5).ceil / scale

/-- The remainder with the sign of the divisor. -/
def modulo (args : List Value) : Value := .ofExcept do
  let x ← numberArg args 0
  let d ← numberArg args 1
  return if d == 0 then .error .divZero else .ofFinite (x - d * (x / d).floor)

def power (args : List Value) : Value := Value.applyBinary .power (arg args 0) (arg args 1)

def squareRoot (args : List Value) : Value := .ofExcept do
  let x ← numberArg args 0
  return if x < 0 then .error .num else .number x.sqrt

def sign (x : Float) : Float := if 0 < x then 1 else if x < 0 then -1 else 0

/-- A number from 0 up to, but not including, 1. -/
def random (_ : List Value) (site : CallSite) : Task :=
  .answer (.number (Number.ofNat (site.draw % Nat.pow 2 53) / 9007199254740992))

/-- A whole number between two bounds, both included. -/
def randomBetween (args : List Value) (site : CallSite) : Task := .answer <| .ofExcept do
  let bottom ← numberArg args 0
  let top ← numberArg args 1
  let lo := Number.truncateSigned 64 bottom.ceil
  let hi := Number.truncateSigned 64 top.floor
  return if hi < lo then .error .num
    else .number (Float.ofInt (lo + (site.draw % (hi - lo + 1).toNat : Nat)))

def mathFunctions : List FunctionDef :=
  let number := ArgumentRules.perArgument [.number]
  let raw := ArgumentRules.perArgument [.raw]
  [{ name := "SUM", minArgs := 1, maxArgs := none, run := pure sum },
   { name := "AVERAGE", minArgs := 1, maxArgs := none, run := pure average },
   { name := "MIN", minArgs := 1, maxArgs := none, run := pure (reduce smaller) },
   { name := "MAX", minArgs := 1, maxArgs := none, run := pure (reduce larger) },
   { name := "COUNT", minArgs := 1, maxArgs := none, rules := raw, run := pure count },
   { name := "COUNTA", minArgs := 1, maxArgs := none, rules := raw, run := pure countAll },
   { name := "PRODUCT", minArgs := 1, maxArgs := none, run := pure product },
   { name := "ABS", minArgs := 1, maxArgs := some 1, rules := number, run := pure (ofNumber Float.abs) },
   { name := "ROUND", minArgs := 2, maxArgs := some 2, rules := number, run := pure round },
   { name := "INT", minArgs := 1, maxArgs := some 1, rules := number, run := pure (ofNumber Float.floor) },
   { name := "MOD", minArgs := 2, maxArgs := some 2, rules := number, run := pure modulo },
   { name := "POWER", minArgs := 2, maxArgs := some 2, rules := number, run := pure power },
   { name := "SQRT", minArgs := 1, maxArgs := some 1, rules := number, run := pure squareRoot },
   { name := "SIGN", minArgs := 1, maxArgs := some 1, rules := number, run := pure (ofNumber sign) },
   { name := "PI", minArgs := 0, maxArgs := some 0, run := pure fun _ => .number 3.141592653589793 },
   { name := "RAND", minArgs := 0, maxArgs := some 0, volatile := true, run := random },
   { name := "RANDBETWEEN", minArgs := 2, maxArgs := some 2, rules := number, volatile := true,
     run := randomBetween }]

end Spreadsheet.Function
