import Spreadsheet.Json.Basic
import Spreadsheet.Number.Binary

/-!
Reading JSON. A text is one value with blanks around it. A number with a fraction or a power, or beyond 64
bits, is read from as many of its first digits as fit into 64 bits, scaled by one power of ten; whole digits
that no longer fit are dropped, and the digits of the fraction are then tried in their place.
-/

namespace Spreadsheet.Json

def skipBlanks (cs : List Char) : List Char :=
  cs.dropWhile fun c => c == ' ' || c == '\n' || c == '\t' || c == '\r'

/-- `significand * 10 ^ exponent` in double arithmetic; nothing, if that is too large. -/
def scale? : (rounds : Nat) → (significand : Float) → (exponent : Int) → Option Float
  | 0, x, _ => some x
  | rounds + 1, x, exponent =>
    if exponent.natAbs ≤ 308 then
      let power := Float.ofScientific 1 false exponent.natAbs
      if 0 ≤ exponent then
        let y := x * power
        if y.isFinite then some y else none
      else some (x / power)
    else if x == 0 then some x
    else if 0 ≤ exponent then none
    else scale? rounds (x / 1e308) (exponent + 308)

/-- `n` extended by the leading digits that still fit into 64 bits, and `count` increased by how many they are. -/
def leadingDigits : (n count : Nat) → List Char → Nat × Nat
  | n, count, [] => (n, count)
  | n, count, c :: cs =>
    let m := n * 10 + (c.toNat - 48)
    if m < Nat.pow 2 64 then leadingDigits m (count + 1) cs else (n, count)

def signedFloat (negative : Bool) (x : Float) : Json := float (if negative then -x else x)

/-- A number from the digits before and after its point and its power. -/
def ofParts (negative : Bool) (integral fraction : List Char) (power : Option Int) : Json :=
  let (n, kept) := leadingDigits 0 0 integral
  let (n, places) := leadingDigits n 0 fraction
  let isWhole := fraction.isEmpty && power.isNone && kept == integral.length
  if isWhole && !negative then whole n
  else if isWhole && n != 0 && n ≤ Nat.pow 2 63 then whole (-n)
  else
    let exponent := power.getD 0 + (integral.length - kept) - places
    if n = 0 then signedFloat negative 0
    else ((scale? 4 (Number.ofNat n) exponent).map (signedFloat negative)).getD valueless

/-- The digits at the front, at least one, and the rest. -/
def digits? (cs : List Char) : Option (List Char × List Char) :=
  match cs.takeWhile Char.isDigit with
  | [] => none
  | ds => some (ds, cs.dropWhile Char.isDigit)

def fraction? : List Char → Option (List Char × List Char)
  | '.' :: cs => digits? cs
  | cs => some ([], cs)

def power? (cs : List Char) : Option (Option Int × List Char) :=
  match cs with
  | c :: rest =>
    if c = 'e' ∨ c = 'E' then
      let (negative, rest) := match rest with
        | '-' :: r => (true, r)
        | '+' :: r => (false, r)
        | r => (false, r)
      (digits? rest).map fun (ds, rest) =>
        let n : Int := Nat.ofDigitChars 10 (ds.drop (ds.length - 9)) 0
        let n := if (ds.take (ds.length - 9)).all (· == '0') then n else 1000000000
        (some (if negative then -n else n), rest)
    else some (none, cs)
  | [] => some (none, cs)

def number? (cs : List Char) : Option (Json × List Char) := do
  let (negative, cs) := match cs with
    | '-' :: rest => (true, rest)
    | _ => (false, cs)
  let (integral, cs) ← digits? cs
  if integral.head? = some '0' ∧ integral.length ≠ 1 then none
  let (fraction, cs) ← fraction? cs
  let (power, cs) ← power? cs
  return (ofParts negative integral fraction power, cs)

def hexDigit? (c : Char) : Option Nat :=
  if c.isDigit then some (c.toNat - 48)
  else if 'a' ≤ c ∧ c ≤ 'f' then some (c.toNat - 87)
  else if 'A' ≤ c ∧ c ≤ 'F' then some (c.toNat - 55)
  else none

def hex4? : List Char → Option (Nat × List Char)
  | a :: b :: c :: d :: rest => do
    let n := (← hexDigit? a) * 4096 + (← hexDigit? b) * 256 + (← hexDigit? c) * 16 + (← hexDigit? d)
    return (n, rest)
  | _ => none

/-- The second half of a surrogate pair. -/
def secondHalf? : List Char → Option (Nat × List Char)
  | '\\' :: 'u' :: rest => do
    let (n, rest) ← hex4? rest
    if 0xDC00 ≤ n ∧ n ≤ 0xDFFF then some (n, rest) else none
  | _ => none

/-- The character of a `\u` escape. Two halves of a surrogate pair make one character, half a pair none. -/
def unicode? (cs : List Char) : Option (Option Char × List Char) := do
  let (n, rest) ← hex4? cs
  if n < 0xD800 ∨ 0xDFFF < n then return (some (Char.ofNat n), rest)
  match if n < 0xDC00 then secondHalf? rest else none with
  | some (m, rest) => return (some (Char.ofNat (0x10000 + (n - 0xD800) * 0x400 + (m - 0xDC00))), rest)
  | none => return (none, rest)

def escape? : List Char → Option (Option Char × List Char)
  | '"' :: cs => some ('"', cs)
  | '\\' :: cs => some ('\\', cs)
  | '/' :: cs => some ('/', cs)
  | 'b' :: cs => some ('\x08', cs)
  | 'f' :: cs => some ('\x0c', cs)
  | 'n' :: cs => some ('\n', cs)
  | 'r' :: cs => some ('\r', cs)
  | 't' :: cs => some ('\t', cs)
  | 'u' :: cs => unicode? cs
  | _ => none

/-- What is written of a string up to its closing quote, and the rest after it. -/
def closeString? : List Char → Option (List Char × List Char)
  | [] => none
  | '"' :: cs => some ([], cs)
  | '\\' :: c :: cs => (closeString? cs).map fun (body, rest) => ('\\' :: c :: body, rest)
  | c :: cs => (closeString? cs).map fun (body, rest) => (c :: body, rest)

/-- The characters of a written string, without one for half of a surrogate pair. -/
def characters? : (fuel : Nat) → List Char → Option (List (Option Char))
  | _, [] => some []
  | 0, _ => none
  | fuel + 1, '\\' :: cs => do
    let (c, cs) ← escape? cs
    return c :: (← characters? fuel cs)
  | fuel + 1, c :: cs => if c.toNat < 32 then none else (characters? fuel cs).map (some c :: ·)

/-- A string after its opening quote, and the rest after its closing one; a text without a value is no key. -/
def key? (cs : List Char) : Option (Option Key × List Char) := do
  let (body, rest) ← closeString? cs
  let text := (← characters? body.length body).mapM id
  return (text.map fun cs => ⟨String.ofList cs, body.contains '\\'⟩, rest)

def keyword? (word : String) (j : Json) (cs : List Char) : Option (Json × List Char) :=
  if cs.take word.length = word.toList then some (j, cs.drop word.length) else none

mutual

/-- One value at the front of a text without leading blanks. -/
def value? : (fuel : Nat) → List Char → Option (Json × List Char)
  | 0, _ => none
  | fuel + 1, cs =>
    match cs with
    | 'n' :: _ => keyword? "null" null cs
    | 't' :: _ => keyword? "true" (bool true) cs
    | 'f' :: _ => keyword? "false" (bool false) cs
    | '"' :: rest => (key? rest).map fun (key, rest) => ((key.map (string ·.text)).getD valueless, rest)
    | '[' :: rest =>
      match skipBlanks rest with
      | ']' :: rest => some (array [], rest)
      | rest => (elements? fuel rest).map fun (l, rest) => (array l, rest)
    | '\x7b' :: rest =>
      match skipBlanks rest with
      | '\x7d' :: rest => some (object [], rest)
      | rest => (members? fuel rest).map fun (l, rest) => (((l.mapM id).map object).getD valueless, rest)
    | _ => number? cs

/-- The elements of an array that is not empty, and the rest after its closing bracket. -/
def elements? : (fuel : Nat) → List Char → Option (List Json × List Char)
  | 0, _ => none
  | fuel + 1, cs => do
    let (j, rest) ← value? fuel cs
    match skipBlanks rest with
    | ',' :: rest =>
      let (l, rest) ← elements? fuel (skipBlanks rest)
      return (j :: l, rest)
    | ']' :: rest => return ([j], rest)
    | _ => none

/-- The fields of an object that is not empty, and the rest after its closing brace; nothing for a field
whose key has no value. -/
def members? : (fuel : Nat) → List Char → Option (List (Option (Key × Json)) × List Char)
  | 0, _ => none
  | fuel + 1, cs => do
    let '"' :: rest := cs | none
    let (key, rest) ← key? rest
    let ':' :: rest := skipBlanks rest | none
    let (j, rest) ← value? fuel (skipBlanks rest)
    let member := key.map (·, j)
    match skipBlanks rest with
    | ',' :: rest =>
      let (l, rest) ← members? fuel (skipBlanks rest)
      return (member :: l, rest)
    | '\x7d' :: rest => return ([member], rest)
    | _ => none

end

/-- Reads a whole text as one value. -/
def parse? (s : String) : Option Json := do
  let cs := skipBlanks s.toList
  let (j, rest) ← value? (2 * cs.length + 2) cs
  if (skipBlanks rest).isEmpty then some j else none

end Spreadsheet.Json
