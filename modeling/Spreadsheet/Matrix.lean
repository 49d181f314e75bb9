import Spreadsheet.Place

/-!
Sparse matrices: finite maps from positions that list their entries row by row. A matrix holds a map of rows,
each a map of columns, and a row only as long as there is something in it.
-/

namespace Spreadsheet

open Std

structure Matrix (α : Type) where
  rows : ExtTreeMap Nat (ExtTreeMap Nat α)

namespace Matrix

variable {α : Type}

def empty : Matrix α := ⟨∅⟩

instance : Inhabited (Matrix α) := ⟨empty⟩

def get? (m : Matrix α) (row col : Nat) : Option α := m.rows[row]?.bind (·[col]?)

def contains (m : Matrix α) (row col : Nat) : Bool := (m.get? row col).isSome

/-- Puts a value in and answers with the one that was there before. -/
def getThenInsert? (m : Matrix α) (row col : Nat) (a : α) : Option α × Matrix α :=
  let cols := m.rows[row]?.getD ∅
  (cols[col]?, ⟨m.rows.insert row (cols.insert col a)⟩)

/-- Takes a value out and answers with it. A row that nothing is left in goes too. -/
def getThenErase? (m : Matrix α) (row col : Nat) : Option α × Matrix α :=
  match m.rows[row]? with
  | none => (none, m)
  | some cols =>
    let rest := cols.erase col
    (cols[col]?, ⟨if rest.isEmpty then m.rows.erase row else m.rows.insert row rest⟩)

def insert (m : Matrix α) (row col : Nat) (a : α) : Matrix α := (m.getThenInsert? row col a).2

def erase (m : Matrix α) (row col : Nat) : Matrix α := (m.getThenErase? row col).2

/-- Changes the value at a position, if there is one. -/
def modify (m : Matrix α) (row col : Nat) (f : α → α) : Matrix α := ⟨m.rows.modify row (·.modify col f)⟩

def size (m : Matrix α) : Nat := m.rows.foldl (fun n _ cols => n + cols.size) 0

def isEmpty (m : Matrix α) : Bool := m.rows.isEmpty

/-- Entries of one row. -/
def ofRow (row : Nat) (cols : List (Nat × α)) : List (Position × α) := cols.map fun (col, a) => (⟨row, col⟩, a)

/-- The entries row by row. -/
def toList (m : Matrix α) : List (Position × α) := m.rows.toList.flatMap fun (row, cols) => ofRow row cols.toList

def ofList (l : List (Position × α)) : Matrix α :=
  l.foldl (fun m e => m.insert e.1.row e.1.col e.2) empty

/-- The entries between two rows and two columns, each pair in order and both ends included. -/
def within (m : Matrix α) (row₁ col₁ row₂ col₂ : Nat) : List (Position × α) :=
  (m.rows.toList.filter fun (row, _) => row₁ ≤ row && row ≤ row₂).flatMap fun (row, cols) =>
    ofRow row (cols.toList.filter fun (col, _) => col₁ ≤ col && col ≤ col₂)

/-- The last column of each row. -/
def lastCols (m : Matrix α) : List Nat := m.rows.toList.filterMap fun (_, cols) => cols.maxKey?

/-- The largest row and the largest column in use. -/
def extent? (m : Matrix α) : Option (Nat × Nat) := do
  let row ← m.rows.maxKey?
  let col ← m.lastCols.max?
  return (row, col)

theorem getThenInsert?_eq (m : Matrix α) (row col : Nat) (a : α) :
    m.getThenInsert? row col a = (m.get? row col, m.insert row col a) := by
  rw [insert, getThenInsert?, get?]
  cases m.rows[row]? <;> simp

theorem getThenErase?_eq (m : Matrix α) (row col : Nat) :
    m.getThenErase? row col = (m.get? row col, m.erase row col) := by
  rw [erase, getThenErase?, get?]
  cases m.rows[row]? <;> rfl

@[simp] theorem get?_empty (row col : Nat) : (empty : Matrix α).get? row col = none := by
  simp [get?, empty]

theorem get?_insert (m : Matrix α) (row col : Nat) (a : α) (r c : Nat) :
    (m.insert row col a).get? r c = if row = r ∧ col = c then some a else m.get? r c := by
  simp only [get?, insert, getThenInsert?, ExtTreeMap.getElem?_insert, Std.compare_eq_iff_eq]
  by_cases hr : row = r
  · subst hr
    simp only [if_true, Option.bind_some, ExtTreeMap.getElem?_insert, Std.compare_eq_iff_eq, true_and]
    cases m.rows[row]? <;> simp
  · simp [hr]

theorem get?_erase (m : Matrix α) (row col r c : Nat) :
    (m.erase row col).get? r c = if row = r ∧ col = c then none else m.get? r c := by
  unfold erase getThenErase?
  cases hm : m.rows[row]? with
  | none => grind [get?]
  | some cols =>
    have hrest : (cols.erase col)[c]? = if col = c then none else cols[c]? := by
      simp only [ExtTreeMap.getElem?_erase, Std.compare_eq_iff_eq]
    simp only [get?]
    split
    · -- The row goes, and all that it had was what is taken out.
      rename_i hempty
      rw [ExtTreeMap.isEmpty_iff.1 hempty] at hrest
      simp only [ExtTreeMap.getElem?_erase, Std.compare_eq_iff_eq]
      grind
    · simp only [ExtTreeMap.getElem?_insert, Std.compare_eq_iff_eq]
      grind

theorem get?_modify (m : Matrix α) (row col : Nat) (f : α → α) (r c : Nat) :
    (m.modify row col f).get? r c = if row = r ∧ col = c then (m.get? r c).map f else m.get? r c := by
  simp only [get?, modify, ExtTreeMap.getElem?_modify, Std.compare_eq_iff_eq]
  by_cases hr : row = r
  · subst hr
    cases m.rows[row]? with
    | none => simp
    | some cols =>
      simp only [if_true, Option.map_some, Option.bind_some, ExtTreeMap.getElem?_modify, Std.compare_eq_iff_eq,
        true_and]
      grind
  · simp [hr]

end Matrix

end Spreadsheet
