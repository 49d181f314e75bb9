import Mathlib.Order.Bounds.Basic
import Mathlib.Tactic.Lemma
import Spreadsheet.Matrix
import Spreadsheet.Proofs.Table

/-!
A matrix behaves like one map from positions, ordered row by row, through any sequence of edits. Entries and their
order need nothing but the two layers of maps. That a matrix without entries is empty, and that its extent is that
of its entries, rests on no row being empty, and no edit leaves one behind.
-/

namespace Spreadsheet

open Std

lemma Position.compare_eq_lt_iff {p q : Position} :
    compare p q = .lt ↔ p.row < q.row ∨ p.row = q.row ∧ p.col < q.col := by
  change compareLex (compareOn Position.row) (compareOn Position.col) p q = .lt ↔ _
  simp only [compareLex, compareOn, Ordering.then_eq_lt, Nat.compare_eq_lt, Nat.compare_eq_eq]

namespace Matrix

variable {α : Type} {m : Matrix α} {t : ExtTreeMap Position α}

/-! Entries. -/

lemma mem_ofRow {row : Nat} {cols : List (Nat × α)} {p : Position} {a : α} :
    (p, a) ∈ ofRow row cols ↔ p.row = row ∧ (p.col, a) ∈ cols := by
  simp only [ofRow, List.mem_map, Prod.exists, Prod.mk.injEq]
  constructor
  · rintro ⟨col, b, h, rfl, rfl⟩
    exact ⟨rfl, h⟩
  · rintro ⟨rfl, h⟩
    exact ⟨p.col, a, h, rfl, rfl⟩

lemma mem_toList {p : Position} {a : α} : (p, a) ∈ m.toList ↔ m.get? p.row p.col = some a := by
  simp only [toList, List.mem_flatMap, Prod.exists, mem_ofRow, ExtTreeMap.mem_toList_iff_getElem?_eq_some, get?,
    Option.bind_eq_some_iff]
  constructor
  · rintro ⟨row, cols, hrow, rfl, hcol⟩
    exact ⟨cols, hrow, hcol⟩
  · rintro ⟨cols, hrow, hcol⟩
    exact ⟨p.row, cols, hrow, rfl, hcol⟩

lemma pairwise_toList : m.toList.Pairwise fun x y => compare x.1 y.1 = .lt := by
  rw [toList, List.pairwise_flatMap]
  constructor
  · rintro ⟨row, cols⟩ -
    refine List.pairwise_map.2 (ExtTreeMap.ordered_keys_toList.imp fun {x y} hcol => ?_)
    exact Position.compare_eq_lt_iff.2 (.inr ⟨rfl, Nat.compare_eq_lt.1 hcol⟩)
  · refine ExtTreeMap.ordered_keys_toList.imp fun {_ _} hrow => ?_
    rintro ⟨p, _⟩ hp ⟨q, _⟩ hq
    refine Position.compare_eq_lt_iff.2 (.inl ?_)
    rw [(mem_ofRow.1 hp).1, (mem_ofRow.1 hq).1]
    exact Nat.compare_eq_lt.1 hrow

/-- What is found settles the list, since a list in strict order is settled by what is in it. -/
lemma toList_eq (h : ∀ row col, m.get? row col = t[(⟨row, col⟩ : Position)]?) : m.toList = t.toList := by
  have hmem : ∀ x : Position × α, x ∈ m.toList ↔ x ∈ t.toList := fun (p, a) => by
    rw [mem_toList, h, ExtTreeMap.mem_toList_iff_getElem?_eq_some]
  have hnodup {l : List (Position × α)} (hl : l.Pairwise fun x y => compare x.1 y.1 = .lt) : l.Nodup :=
    hl.imp fun {x y} hxy heq => by simp [heq] at hxy
  refine List.Perm.eq_of_pairwise (fun x y _ _ hxy hyx => ?_) pairwise_toList ExtTreeMap.ordered_keys_toList
    ((List.perm_ext_iff_of_nodup (hnodup pairwise_toList) (hnodup ExtTreeMap.ordered_keys_toList)).2 hmem)
  exact absurd hyx (OrientedCmp.not_lt_of_lt hxy)

lemma length_toList : m.toList.length = m.size := by
  have hsum : ∀ (l : List (Nat × ExtTreeMap Nat α)) (n : Nat),
      l.foldl (fun n x => n + x.2.size) n = n + (l.flatMap fun x => ofRow x.1 x.2.toList).length := by
    intro l
    induction l with
    | nil => exact fun _ => rfl
    | cons x l ih =>
      intro n
      rw [List.foldl_cons, ih, List.flatMap_cons, List.length_append, ofRow, List.length_map, ExtTreeMap.length_toList]
      omega
  rw [size, ExtTreeMap.foldl_eq_foldl_toList, hsum, Nat.zero_add, toList]

lemma filter_ofRow (p q : Nat → Bool) (row : Nat) (cols : List (Nat × α)) :
    ((ofRow row cols).filter fun x => p x.1.row && q x.1.col) =
      if p row then ofRow row (cols.filter fun x => q x.1) else [] := by
  rw [ofRow, List.filter_map]
  cases hp : p row <;> simp [Function.comp_def, hp, ofRow]

lemma within_eq_filter (row₁ col₁ row₂ col₂ : Nat) : m.within row₁ col₁ row₂ col₂ = m.toList.filter fun (p, _) =>
    (row₁ ≤ p.row && p.row ≤ row₂) && (col₁ ≤ p.col && p.col ≤ col₂) := by
  rw [within, toList, List.filter_flatMap]
  induction m.rows.toList with
  | nil => rfl
  | cons x l ih =>
    obtain ⟨row, cols⟩ := x
    have hrow := filter_ofRow (fun r => row₁ ≤ r && r ≤ row₂) (fun c => col₁ ≤ c && c ≤ col₂) row cols.toList
    rw [List.flatMap_cons, ← ih]
    refine Eq.trans ?_ (congrArg (· ++ _) hrow.symm)
    cases hin : decide (row₁ ≤ row) && decide (row ≤ row₂) <;> simp [hin]

lemma insert_comm (m : Matrix α) {row col row' col' : Nat} (h : (⟨row, col⟩ : Position) ≠ ⟨row', col'⟩) (a b : α) :
    (m.insert row col a).insert row' col' b = (m.insert row' col' b).insert row col a := by
  refine congrArg Matrix.mk (ExtTreeMap.ext_getElem? fun k => ?_)
  simp only [insert, getThenInsert?, ExtTreeMap.getElem?_insert, Std.compare_eq_iff_eq]
  by_cases hrow : row = row'
  · subst hrow
    have hcol : col ≠ col' := fun hcol => h (by rw [hcol])
    simp only [if_true, Option.getD_some]
    split
    · exact congrArg some (Table.insert_comm _ (a := (col, a)) (b := (col', b)) hcol)
    · rfl
  · grind

/-! Rows. -/

/-- No row is empty. -/
def Filled (m : Matrix α) : Prop := ∀ (row : Nat) (cols : ExtTreeMap Nat α), m.rows[row]? = some cols → cols ≠ ∅

lemma filled_empty : (empty : Matrix α).Filled := by
  simp [Filled, empty]

lemma Filled.getThenInsert? (h : m.Filled) (row col : Nat) (a : α) : (m.getThenInsert? row col a).2.Filled := by
  intro r cols hr
  simp only [Matrix.getThenInsert?, ExtTreeMap.getElem?_insert, Std.compare_eq_iff_eq] at hr
  split at hr
  · obtain rfl := Option.some.inj hr
    simp
  · exact h r cols hr

lemma Filled.getThenErase? (h : m.Filled) (row col : Nat) : (m.getThenErase? row col).2.Filled := by
  intro r cols hr
  unfold Matrix.getThenErase? at hr
  split at hr
  · exact h r cols hr
  · dsimp only at hr
    split at hr
    · -- Nothing is left in the row, and it is gone.
      rw [ExtTreeMap.getElem?_erase] at hr
      exact h r cols (Option.ite_none_left_eq_some.1 hr).2
    · rename_i hrest
      rw [ExtTreeMap.getElem?_insert] at hr
      split at hr
      · obtain rfl := Option.some.inj hr
        exact fun hempty => hrest (ExtTreeMap.isEmpty_iff.2 hempty)
      · exact h r cols hr

lemma Filled.modify (h : m.Filled) (row col : Nat) (f : α → α) : (m.modify row col f).Filled := by
  intro r cols hr
  simp only [Matrix.modify, ExtTreeMap.getElem?_modify] at hr
  split at hr
  · obtain ⟨old, hold, rfl⟩ := Option.map_eq_some_iff.1 hr
    rw [ne_eq, ExtTreeMap.modify_eq_empty_iff]
    exact h row old hold
  · exact h r cols hr

lemma contains_iff {row col : Nat} :
    m.contains row col = true ↔ ∃ cols, m.rows[row]? = some cols ∧ col ∈ cols := by
  simp only [contains, get?, Option.isSome_iff_exists, Option.bind_eq_some_iff, ExtTreeMap.mem_iff_isSome_getElem?]
  grind

lemma Filled.mem_rows_iff (h : m.Filled) {row : Nat} : row ∈ m.rows ↔ ∃ col, m.contains row col = true := by
  simp only [contains_iff]
  constructor
  · intro hrow
    obtain ⟨cols, hcols⟩ := Option.isSome_iff_exists.1 (ExtTreeMap.mem_iff_isSome_getElem?.1 hrow)
    obtain ⟨col, hcol⟩ : ∃ col, col ∈ cols := by
      by_contra hno
      exact h row cols hcols (ExtTreeMap.eq_empty_iff_forall_not_mem.2 fun col hcol => hno ⟨col, hcol⟩)
    exact ⟨col, cols, hcols, hcol⟩
  · rintro ⟨-, cols, hcols, -⟩
    rw [ExtTreeMap.mem_iff_isSome_getElem?, hcols]
    rfl

lemma maxKey?_eq_some_iff_isGreatest {β : Type} {t : ExtTreeMap Nat β} {n : Nat} :
    t.maxKey? = some n ↔ IsGreatest {k | k ∈ t} n := by
  rw [ExtTreeMap.maxKey?_eq_some_iff_mem_and_forall]
  simp only [Nat.isLE_compare]
  rfl

lemma Filled.isEmpty_iff (h : m.Filled) : m.isEmpty = true ↔ m.size = 0 := by
  rw [isEmpty, ExtTreeMap.isEmpty_iff, ← length_toList, List.length_eq_zero_iff]
  constructor
  · intro hrows
    simp [toList, hrows]
  · intro hlist
    refine ExtTreeMap.eq_empty_iff_forall_not_mem.2 fun row hrow => ?_
    obtain ⟨col, hcol⟩ := h.mem_rows_iff.1 hrow
    obtain ⟨a, ha⟩ := Option.isSome_iff_exists.1 hcol
    have hmem : ((⟨row, col⟩ : Position), a) ∈ m.toList := mem_toList.2 ha
    rw [hlist] at hmem
    cases hmem

-- A row that is left empty keeps the matrix from being empty.
example : let m : Matrix Nat := ⟨(∅ : ExtTreeMap Nat (ExtTreeMap Nat Nat)).insert 3 ∅⟩
    m.size = 0 ∧ m.isEmpty = false := by decide

lemma mem_lastCols {last : Nat} : last ∈ m.lastCols ↔
    ∃ (row : Nat) (cols : ExtTreeMap Nat α), m.rows[row]? = some cols ∧ IsGreatest {c | c ∈ cols} last := by
  simp only [lastCols, List.mem_filterMap, Prod.exists, ExtTreeMap.mem_toList_iff_getElem?_eq_some,
    maxKey?_eq_some_iff_isGreatest]

lemma exists_lastCol {row col : Nat} (h : m.contains row col = true) : ∃ last ∈ m.lastCols, col ≤ last := by
  obtain ⟨cols, hcols, hcol⟩ := contains_iff.1 h
  obtain ⟨last, hlast⟩ := Option.isSome_iff_exists.1 (ExtTreeMap.isSome_maxKey?_of_mem hcol)
  have hlast := maxKey?_eq_some_iff_isGreatest.1 hlast
  exact ⟨last, mem_lastCols.2 ⟨row, cols, hcols, hlast⟩, hlast.2 hcol⟩

lemma max?_lastCols {col : Nat} : m.lastCols.max? = some col ↔ IsGreatest {c | ∃ r, m.contains r c = true} col := by
  have hused {c : Nat} (hc : c ∈ m.lastCols) : ∃ r, m.contains r c = true := by
    obtain ⟨row, cols, hcols, hc, -⟩ := mem_lastCols.1 hc
    exact ⟨row, contains_iff.2 ⟨cols, hcols, hc⟩⟩
  rw [List.max?_eq_some_iff]
  constructor
  · rintro ⟨hcol, hle⟩
    refine ⟨hused hcol, ?_⟩
    rintro c ⟨r, hc⟩
    obtain ⟨last, hlast, hcl⟩ := exists_lastCol hc
    exact hcl.trans (hle last hlast)
  · rintro ⟨⟨row, hcol⟩, hle⟩
    obtain ⟨last, hlast, hcl⟩ := exists_lastCol hcol
    obtain rfl : col = last := hcl.antisymm (hle (hused hlast))
    exact ⟨hlast, fun c hc => hle (hused hc)⟩

lemma Filled.extent?_eq_some_iff (h : m.Filled) {row col : Nat} : m.extent? = some (row, col) ↔
    IsGreatest {r | ∃ c, m.contains r c = true} row ∧ IsGreatest {c | ∃ r, m.contains r c = true} col := by
  have hrows : {r | r ∈ m.rows} = {r | ∃ c, m.contains r c = true} := Set.ext fun _ => h.mem_rows_iff
  simp only [extent?, Option.bind_eq_bind, Option.bind_eq_some_iff, Option.pure_def, Option.some.injEq, Prod.mk.injEq,
    maxKey?_eq_some_iff_isGreatest, hrows, max?_lastCols]
  constructor
  · rintro ⟨r, hr, c, hc, rfl, rfl⟩
    exact ⟨hr, hc⟩
  · rintro ⟨hr, hc⟩
    exact ⟨row, hr, col, hc, rfl, rfl⟩

lemma Filled.extent?_eq_none_iff (h : m.Filled) : m.extent? = none ↔ m.size = 0 := by
  rw [← h.isEmpty_iff, isEmpty, ExtTreeMap.isEmpty_iff]
  constructor
  · intro hnone
    refine ExtTreeMap.eq_empty_iff_forall_not_mem.2 fun row hrow => ?_
    obtain ⟨lastRow, hlastRow⟩ := Option.isSome_iff_exists.1 (ExtTreeMap.isSome_maxKey?_of_mem hrow)
    obtain ⟨col, hcol⟩ := h.mem_rows_iff.1 hrow
    obtain ⟨last, hlast, -⟩ := exists_lastCol hcol
    obtain ⟨lastCol, hlastCol⟩ :=
      Option.ne_none_iff_exists'.1 (mt List.max?_eq_none_iff.1 (List.ne_nil_of_mem hlast))
    rw [extent?, hlastRow, Option.bind_eq_bind, Option.bind_some, hlastCol] at hnone
    cases hnone
  · intro hrows
    simp [extent?, hrows]

/-! Edits. -/

/-- A request to change a matrix. -/
inductive Edit (α : Type) where
  | insert (row col : Nat) (a : α)
  | erase (row col : Nat)
  | modify (row col : Nat) (f : α → α)

namespace Edit

/-- Makes an edit and answers with the value that stood there before. -/
def onMatrix (m : Matrix α) : Edit α → Option α × Matrix α
  | insert row col a => m.getThenInsert? row col a
  | erase row col => m.getThenErase? row col
  | modify row col f => (m.get? row col, m.modify row col f)

/-- The same for a map from positions. -/
def onMap (t : ExtTreeMap Position α) : Edit α → Option α × ExtTreeMap Position α
  | insert row col a => (t[(⟨row, col⟩ : Position)]?, t.insert ⟨row, col⟩ a)
  | erase row col => (t[(⟨row, col⟩ : Position)]?, t.erase ⟨row, col⟩)
  | modify row col f => (t[(⟨row, col⟩ : Position)]?, t.modify ⟨row, col⟩ f)

/-- Makes edits one after the other, with all their answers. -/
def run {σ : Type} (make : σ → Edit α → Option α × σ) (s : σ) : List (Edit α) → List (Option α) × σ
  | [] => ([], s)
  | e :: edits =>
    let rest := run make (make s e).2 edits
    ((make s e).1 :: rest.1, rest.2)

end Edit

/-- A matrix with no empty row that finds what a map finds. -/
structure Refines (m : Matrix α) (t : ExtTreeMap Position α) : Prop where
  filled : m.Filled
  get? : ∀ row col, m.get? row col = t[(⟨row, col⟩ : Position)]?

namespace Refines

lemma empty : (empty : Matrix α).Refines (∅ : ExtTreeMap Position α) where
  filled := filled_empty
  get? row col := by simp

lemma insert (h : m.Refines t) (row col : Nat) (a : α) : (m.insert row col a).Refines (t.insert ⟨row, col⟩ a) where
  filled := h.filled.getThenInsert? row col a
  get? r c := by
    simp only [get?_insert, ExtTreeMap.getElem?_insert, Std.compare_eq_iff_eq, Position.mk.injEq, h.get?]

lemma erase (h : m.Refines t) (row col : Nat) : (m.erase row col).Refines (t.erase ⟨row, col⟩) where
  filled := h.filled.getThenErase? row col
  get? r c := by
    simp only [get?_erase, ExtTreeMap.getElem?_erase, Std.compare_eq_iff_eq, Position.mk.injEq, h.get?]

lemma modify (h : m.Refines t) (row col : Nat) (f : α → α) :
    (m.modify row col f).Refines (t.modify ⟨row, col⟩ f) where
  filled := h.filled.modify row col f
  get? r c := by
    simp only [get?_modify, ExtTreeMap.getElem?_modify, Std.compare_eq_iff_eq, Position.mk.injEq, h.get?]
    grind

lemma ofList (l : List (Position × α)) : (ofList l).Refines (ExtTreeMap.ofList l) := by
  rw [Matrix.ofList, ExtTreeMap.ofList_eq_foldl]
  have hfold : ∀ (m : Matrix α) (t : ExtTreeMap Position α), m.Refines t →
      (l.foldl (fun m e => m.insert e.1.row e.1.col e.2) m).Refines (l.foldl (fun t e => t.insert e.1 e.2) t) := by
    induction l with
    | nil => exact fun _ _ h => h
    | cons e l ih => exact fun m t h => ih _ _ (h.insert e.1.row e.1.col e.2)
  exact hfold _ _ .empty

end Refines

/-- A matrix that is like a map from positions for all that can be asked of it. -/
structure Shows (m : Matrix α) (t : ExtTreeMap Position α) : Prop where
  get? : ∀ row col, m.get? row col = t[(⟨row, col⟩ : Position)]?
  contains : ∀ row col, m.contains row col = t.contains ⟨row, col⟩
  size : m.size = t.size
  toList : m.toList = t.toList
  pairwise : m.toList.Pairwise fun x y => x.1.row < y.1.row ∨ x.1.row = y.1.row ∧ x.1.col < y.1.col
  within : ∀ row₁ col₁ row₂ col₂, row₁ ≤ row₂ → col₁ ≤ col₂ →
    m.within row₁ col₁ row₂ col₂ = m.toList.filter fun (p, _) =>
      (row₁ ≤ p.row && p.row ≤ row₂) && (col₁ ≤ p.col && p.col ≤ col₂)
  isEmpty : m.isEmpty = true ↔ m.size = 0
  extent?_eq_some : ∀ row col, m.extent? = some (row, col) ↔
    IsGreatest {r | ∃ c, m.contains r c = true} row ∧ IsGreatest {c | ∃ r, m.contains r c = true} col
  extent?_eq_none : m.extent? = none ↔ m.size = 0

lemma Refines.shows (h : m.Refines t) : m.Shows t where
  get? := h.get?
  contains row col := by rw [Matrix.contains, h.get?, ExtTreeMap.contains_eq_isSome_getElem?]
  size := by rw [← length_toList, toList_eq h.get?, ExtTreeMap.length_toList]
  toList := toList_eq h.get?
  pairwise := pairwise_toList.imp fun {_ _} hlt => Position.compare_eq_lt_iff.1 hlt
  within row₁ col₁ row₂ col₂ _ _ := within_eq_filter row₁ col₁ row₂ col₂
  isEmpty := h.filled.isEmpty_iff
  extent?_eq_some _ _ := h.filled.extent?_eq_some_iff
  extent?_eq_none := h.filled.extent?_eq_none_iff

lemma Refines.edit (h : m.Refines t) (e : Edit α) :
    (e.onMatrix m).1 = (e.onMap t).1 ∧ (e.onMatrix m).2.Refines (e.onMap t).2 := by
  cases e with
  | insert row col a =>
    rw [Edit.onMatrix, getThenInsert?_eq]
    exact ⟨h.get? row col, h.insert row col a⟩
  | erase row col =>
    rw [Edit.onMatrix, getThenErase?_eq]
    exact ⟨h.get? row col, h.erase row col⟩
  | modify row col f => exact ⟨h.get? row col, h.modify row col f⟩

lemma Refines.run (h : m.Refines t) (edits : List (Edit α)) :
    (Edit.run Edit.onMatrix m edits).1 = (Edit.run Edit.onMap t edits).1 ∧
      (Edit.run Edit.onMatrix m edits).2.Refines (Edit.run Edit.onMap t edits).2 := by
  induction edits generalizing m t with
  | nil => exact ⟨rfl, h⟩
  | cons e edits ih =>
    obtain ⟨hanswer, hedit⟩ := h.edit e
    obtain ⟨hanswers, hrun⟩ := ih hedit
    exact ⟨congrArg₂ List.cons hanswer hanswers, hrun⟩

/-- A matrix made from a list and then edited is, in answers and in all that can be asked of it, the map from
positions made from the list and then edited. -/
theorem shows_run (l : List (Position × α)) (edits : List (Edit α)) :
    (Edit.run Edit.onMatrix (ofList l) edits).1 = (Edit.run Edit.onMap (ExtTreeMap.ofList l) edits).1 ∧
      (Edit.run Edit.onMatrix (ofList l) edits).2.Shows (Edit.run Edit.onMap (ExtTreeMap.ofList l) edits).2 := by
  obtain ⟨hanswers, hrun⟩ := (Refines.ofList l).run edits
  exact ⟨hanswers, hrun.shows⟩

end Matrix

end Spreadsheet
