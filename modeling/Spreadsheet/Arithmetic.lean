import Spreadsheet.Operator
import Spreadsheet.Sorting

/-!
The operators on values. Every operator answers every pair of values: what cannot be combined gives an
error value, and of two errors the left one. Over arrays an operator works item by item; a single row or
column stretches, and where one array has no item the result is `#N/A`.
-/

namespace Spreadsheet

namespace Value

mutual

def applyUnary (op : UnaryOp) : Value → Value
  | array ⟨rows, cols, items⟩ => array ⟨rows, cols, applyUnaryAll op items⟩
  | v =>
    match v.toNumber, op with
    | .error e, _ => error e
    | .ok x, .negate => number (-x)
    | .ok x, .percent => number (x / 100)

def applyUnaryAll (op : UnaryOp) : List Value → List Value
  | [] => []
  | v :: vs => v.applyUnary op :: applyUnaryAll op vs

end

def arithmetic (op : BinaryOp) (x y : Float) : Value :=
  match op with
  | .add => ofFinite (x + y)
  | .subtract => ofFinite (x - y)
  | .multiply => ofFinite (x * y)
  | .divide => if y == 0 then error .divZero else ofFinite (x / y)
  | .power =>
    if x == 0 && y == 0 then error .num
    else if x == 0 && y < 0 then error .divZero
    else ofFinite (Float.pow x y)
  | _ => error .value

/-- What a blank is beside another value: an empty text, `FALSE` or zero. -/
def blankBeside : Value → Value
  | text _ => text ""
  | boolean _ => boolean false
  | _ => number 0

def compareNumbers (x y : Float) : Ordering := if x < y then .lt else if y < x then .gt else .eq

/-- Numbers, texts and truth values. -/
def isPlain (v : Value) : Bool := v.isNumber || v.isText || v.isBoolean

/-- Numbers, texts and truth values compare among themselves, and mixed pairs as they sort. -/
def comparePlain : Value → Value → Except ErrorValue Ordering
  | number x, number y => .ok (compareNumbers x y)
  | v, w => if v.isPlain && w.isPlain then .ok (compareItems v w) else .error .value

def compareValues : Value → Value → Except ErrorValue Ordering
  | blank, blank => .ok .eq
  | blank, w => comparePlain w.blankBeside w
  | v, blank => comparePlain v v.blankBeside
  | v, w => comparePlain v w

/-- Does a comparison operator hold for two values in the given order? -/
def holds : BinaryOp → Ordering → Bool
  | .equal, o => o == .eq
  | .notEqual, o => o != .eq
  | .less, o => o == .lt
  | .lessEqual, o => o != .gt
  | .greater, o => o == .gt
  | .greaterEqual, o => o != .lt
  | _, _ => false

/-- An operator on two values that are no arrays. -/
def applyScalar (op : BinaryOp) (v w : Value) : Value :=
  match v.error?, w.error? with
  | some e, _ => error e
  | none, some e => error e
  | none, none =>
    if v.isPending || w.isPending then error .calculation
    else match op with
      | .add | .subtract | .multiply | .divide | .power => ofExcept do
        let x ← v.toNumber
        let y ← w.toNumber
        return arithmetic op x y
      | .concat => ofExcept do
        let s ← v.toText
        let t ← w.toText
        return text (s ++ t)
      | .equal | .notEqual | .less | .lessEqual | .greater | .greaterEqual => ofExcept do
        let o ← compareValues v w
        return boolean (holds op o)
      | .range | .intersect => error .value

def broadcast (op : BinaryOp) (g h : Grid Value) : Value :=
  if g.isEmpty || h.isEmpty then error .value
  else
    let left := g.stretched
    let right := h.stretched
    array <| Grid.build (max g.rows h.rows) (max g.cols h.cols) fun i j =>
      match left i j, right i j with
      | some v, some w => applyScalar op v w
      | _, _ => error .notAvailable

def applyBinary (op : BinaryOp) : Value → Value → Value
  | array g, array h => broadcast op g h
  | array g, w => broadcast op g (Grid.single w)
  | v, array h => broadcast op (Grid.single v) h
  | v, w => applyScalar op v w

end Value

end Spreadsheet
