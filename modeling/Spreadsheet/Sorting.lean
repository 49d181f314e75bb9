import Spreadsheet.Value

/-!
The order in which values sort: blanks, numbers, truth values, texts, errors, and last what is no plain
value. An array stands where its first item stands, and an array without items before everything else;
of two such arrays the one that lies deeper inside other arrays comes later.
-/

namespace Spreadsheet

open Text

/-- What an array comes down to when its first item is taken again and again. -/
inductive Corner
  | hollow (depth : Nat)
  | item (v : Value)

def Corner.deeper : Corner → Corner
  | hollow depth => hollow (depth + 1)
  | item v => item v

namespace Value

def corner : Value → Corner
  | array ⟨_, _, []⟩ => .hollow 0
  | array ⟨_, _, v :: _⟩ => v.corner.deeper
  | v => .item v

def rank : Value → Nat
  | blank => 0
  | number _ => 1
  | boolean _ => 2
  | text _ => 3
  | error _ => 4
  | array _ | reference _ | pending _ => 5

/-- Texts compare by the code points of their lower case. -/
def compareText (s t : String) : Ordering := compare (lower s) (lower t)

/-- The order of values that are no arrays. -/
def compareItems : Value → Value → Ordering
  | number x, number y => compare (Number.orderKey x) (Number.orderKey y)
  | boolean a, boolean b => compare a.toNat b.toNat
  | text s, text t => compareText s t
  | error d, error e => compare d.code e.code
  | v, w => compare v.rank w.rank

def sortOrder (v w : Value) : Ordering :=
  match v.corner, w.corner with
  | .hollow m, .hollow n => compare m n
  | .hollow _, .item _ => .lt
  | .item _, .hollow _ => .gt
  | .item v, .item w => compareItems v w

/-- Sorts stably. -/
def sort (vs : List Value) : List Value := vs.mergeSort fun v w => sortOrder v w != .gt

end Value

end Spreadsheet
