import Spreadsheet.Evaluation.Host
import Spreadsheet.Evaluation.Pass

/-!
The state of evaluations: what stays as it is while formulas are evaluated (`Snapshot`), where evaluation
is (`Scope`), and what changes as it goes (`Session`). An evaluation can break off; it then gives away the
scope in which that happened, and what it has stored before stays.
-/

namespace Spreadsheet

open Std Dependency Formula

/-- A cell with the bounds of its sheet. -/
structure Cursor where
  place : Place
  rowCount : Nat := maxRows
  colCount : Nat := maxCols
deriving DecidableEq, Inhabited

def Books.cursor (b : Books) (p : Place) : Cursor :=
  let (rowCount, colCount) := b.bounds p.book p.sheet
  { place := p, rowCount, colCount }

/-- A definition: its workbook, the sheet it is limited to, and its name in upper case. -/
structure NameKey where
  book : String
  scope : Option String
  name : String
deriving DecidableEq

namespace NameKey

abbrev order : NameKey → NameKey → Ordering :=
  compareLex (compareOn book) (compareLex (compareOn scope) (compareOn name))

instance : Ord NameKey := ⟨order⟩

instance : TransOrd NameKey := inferInstanceAs (TransCmp order)

instance : LawfulEqOrd NameKey where
  eq_of_compare {a b} h := by
    have h : order a b = .eq := h
    simp only [order, compareLex_eq_eq, compareOn, Std.compare_eq_iff_eq] at h
    cases a; cases b; simp_all

end NameKey

/-- The formula being evaluated: a definition, a formula given from outside, which has a number above
zero, or else the formula of the current cell. -/
structure Origin where
  definition : Option NameKey := none
  entry : Nat := 0
deriving DecidableEq

/-- A function call in a formula, evaluated at a place. -/
structure CallKey where
  place : Place
  definition : Option NameKey
  entry : Nat
  /-- Where the call starts in the text of the formula. -/
  start : Nat
deriving DecidableEq

namespace CallKey

abbrev order : CallKey → CallKey → Ordering :=
  compareLex (compareOn place) (compareLex (compareOn definition) (compareLex (compareOn entry)
    (compareOn start)))

instance : Ord CallKey := ⟨order⟩

instance : TransOrd CallKey := inferInstanceAs (TransCmp order)

instance : LawfulEqOrd CallKey where
  eq_of_compare {a b} h := by
    have h : order a b = .eq := h
    simp only [order, compareLex_eq_eq, compareOn, Std.compare_eq_iff_eq] at h
    cases a; cases b; simp_all

end CallKey

structure Snapshot extends Surroundings where
  index : Option Index := none

namespace Snapshot

def formulas (s : Snapshot) : Index := s.index.getD {}

/-- More than the cells and definitions that can be under evaluation inside one another. -/
def depth (s : Snapshot) : Nat :=
  s.formulas.size + s.books.toList.foldl (fun n b => n + b.names.length) 0 + 1

/-- The stored value of a cell, blank if there is no such sheet. -/
def stored (s : Snapshot) (p : Place) : Value :=
  match s.books.value? p with
  | some v => .ofScalar v
  | none => .blank

end Snapshot

structure Scope where
  cursor : Cursor
  /-- The calculation this evaluation belongs to. -/
  generation : Nat := 0
  /-- The cells under evaluation. -/
  cells : PlaceSet := ∅
  /-- The definitions under evaluation. -/
  names : ExtTreeSet NameKey := ∅
  origin : Origin := {}
  /-- Are answers that come later waited for? -/
  waits : Bool := false

namespace Scope

def callKey (s : Scope) (start : Nat) : CallKey :=
  ⟨s.cursor.place, s.origin.definition, s.origin.entry, start⟩

def moveTo (s : Scope) (c : Cursor) : Scope := { s with cursor := c }

/-- The scope in which the formula of a cell is evaluated. -/
def enterCell (s : Scope) (c : Cursor) : Scope :=
  { s with cursor := c, cells := s.cells.insert c.place, origin := {} }

/-- The scope in which a definition is evaluated. -/
def enterName (s : Scope) (k : NameKey) : Scope :=
  { s with names := s.names.insert k, origin := { definition := some k } }

end Scope

structure Session where
  host : Host := {}
  pass : Pass := {}
  /-- The definitions parsed so far. -/
  definitions : ExtTreeMap NameKey Node := ∅
  /-- The answers of calls that were made in the running evaluation. -/
  answers : ExtTreeMap CallKey Value := ∅
  /-- Calls whose answers have to be waited for, last one first. -/
  awaited : List (CallKey × Nat) := []
  /-- The number of formulas that were given from outside. -/
  entries : Nat := 0

/-- Evaluation, or the scope in which it broke off. -/
abbrev Eval := ReaderT Scope (ExceptT Scope (StateM Session))

namespace Eval

def breakOff {α : Type} : Eval α := do throw (← read)

def modifyPass (f : Pass → Pass) : Eval Unit := modify fun s => { s with pass := f s.pass }

/-- Lets the host do something, and breaks off where it does. -/
def ask (f : Host → Option Value × Host) : Eval Value := do
  let s ← get
  let (answer, host) := f s.host
  set { s with host }
  match answer with
  | some v => return v
  | none => breakOff

/-- Keeps the answer of a call. -/
def remember (k : CallKey) (v : Value) : Eval Unit :=
  modify fun s => { s with answers := s.answers.insert k v }

def await (k : CallKey) (handle : Nat) : Eval Unit :=
  modify fun s => { s with awaited := (k, handle) :: s.awaited }

end Eval

end Spreadsheet
