import Spreadsheet.Proofs.Evaluation.Depth
import Spreadsheet.Proofs.Evaluation.Exposed

/-! References to whole columns and whole rows end where their sheet does. Sheets grow with what is stored in them, but
not with the formulas and arrays of a calculation: what such a reference leaves out is blank unless the pass itself
knows of it. -/

namespace Spreadsheet

open Std Dependency Formula

namespace Sheet

variable {s : Sheet}

/-- A sheet that was filled by writing cells. -/
inductive Written : Sheet → Prop
  | new (id name : String) : Written { id, name }
  | sized (id name : String) (rows cols : Nat) : Written (({ id, name } : Sheet).withSize rows cols)
  | setCell {s : Sheet} (row col : Nat) (c : Cell) : Written s → Written (s.setCell row col c)
  | setFormula {s : Sheet} (row col : Nat) (f : StoredFormula) : Written s → Written (s.setFormula row col f)
  | setCalculated {s : Sheet} (row col : Nat) (v : Scalar) : Written s → Written (s.setCalculated row col v)
  | clear {s : Sheet} (row col : Nat) : Written s → Written (s.clear row col)
  | setRow {s : Sheet} (row : Nat) (info : LineInfo) : Written s → Written (s.setRow row info)
  | setCol {s : Sheet} (col : Nat) (info : LineInfo) : Written s → Written (s.setCol col info)
  | rename {s : Sheet} (name : String) : Written s → Written { s with name }

/-- What is stored lies inside the bounds, as far as bounds reach. -/
structure Enclosed (s : Sheet) : Prop where
  row : ∀ row col c, s.cell? row col = some c → row < rowCountLimit → row < s.rowCount
  col : ∀ row col c, s.cell? row col = some c → col < colCountLimit → col < s.colCount

lemma enclosed_of_empty (h : s.cells = Matrix.empty) : s.Enclosed := by
  constructor <;> simp [cell?, h]

lemma Enclosed.write (h : s.Enclosed) {m : Matrix Cell} {row col : Nat}
    (hm : ∀ i j c, m.get? i j = some c → row = i ∧ col = j ∨ s.cells.get? i j = some c) :
    Enclosed { s.growTo row col with cells := m } := by
  constructor
  · intro i j c hc hlimit
    rcases hm i j c hc with ⟨rfl, -⟩ | hold
    · exact Nat.lt_of_lt_of_le (Nat.lt_min.2 ⟨Nat.lt_succ_self _, hlimit⟩) (Nat.le_max_right _ _)
    · exact Nat.lt_of_lt_of_le (h.row i j c hold hlimit) (Nat.le_max_left _ _)
  · intro i j c hc hlimit
    rcases hm i j c hc with ⟨-, rfl⟩ | hold
    · exact Nat.lt_of_lt_of_le (Nat.lt_min.2 ⟨Nat.lt_succ_self _, hlimit⟩) (Nat.le_max_right _ _)
    · exact Nat.lt_of_lt_of_le (h.col i j c hold hlimit) (Nat.le_max_left _ _)

lemma get?_insert_cases {m : Matrix Cell} {row col i j : Nat} {a c : Cell}
    (h : (m.insert row col a).get? i j = some c) : row = i ∧ col = j ∨ m.get? i j = some c := by
  rw [Matrix.get?_insert] at h
  split at h
  · exact Or.inl ‹_›
  · exact Or.inr h

lemma get?_of_erase {m : Matrix Cell} {row col i j : Nat} {c : Cell} (h : (m.erase row col).get? i j = some c) :
    m.get? i j = some c := by
  rw [Matrix.get?_erase] at h
  split at h
  · cases h
  · exact h

lemma Written.enclosed (h : s.Written) : s.Enclosed := by
  induction h with
  | new id name => exact enclosed_of_empty rfl
  | sized id name rows cols => exact enclosed_of_empty rfl
  | setCell row col c _ ih =>
    refine ih.write fun i j d hd => ?_
    split at hd
    · exact Or.inr (get?_of_erase hd)
    · exact get?_insert_cases hd
  | setFormula row col f _ ih => exact ih.write fun i j d hd => get?_insert_cases hd
  | setCalculated row col v _ ih => exact ih.write fun i j d hd => get?_insert_cases hd
  | clear row col _ ih =>
    exact ⟨fun i j d hd => ih.row i j d (get?_of_erase hd), fun i j d hd => ih.col i j d (get?_of_erase hd)⟩
  | setRow row info _ ih => exact ⟨ih.row, ih.col⟩
  | setCol col info _ ih => exact ⟨ih.row, ih.col⟩
  | rename name _ ih => exact ⟨ih.row, ih.col⟩

end Sheet

namespace Books

/-- The place lies inside the bounds of its sheet. -/
def Spans (b : Books) (q : Place) : Prop :=
  ∃ sheet, b.sheet? q.book q.sheet = some sheet ∧ q.row < sheet.rowCount ∧ q.col < sheet.colCount

/-- All sheets were filled by writing cells. -/
def Written (b : Books) : Prop := ∀ book sheet s, b.sheet? book sheet = some s → s.Written

end Books

/-- A region as far as its sheet goes. -/
def Region.clamp (r : Region) (sheet : Sheet) : Region := { r with range := r.range.clamp sheet.rowCount sheet.colCount }

section

variable {s : Snapshot} {r : Region} {sheet : Sheet} {q : Place}

lemma Region.not_spans_of_out (hs : s.books.sheet? r.book r.sheet = some sheet) (hq : r.contains q = true)
    (hout : (r.clamp sheet).contains q = false) : ¬ s.books.Spans q := by
  simp only [Region.contains, clamp, Bool.and_eq_true, beq_iff_eq] at hq hout
  obtain ⟨⟨hbook, hsheet⟩, hq⟩ := hq
  rw [← hbook, ← hsheet, beq_self_eq_true, beq_self_eq_true, Bool.true_and, Bool.true_and] at hout
  rintro ⟨sheet', hs', hrow, hcol⟩
  rw [← hbook, ← hsheet, hs] at hs'
  obtain rfl := Option.some.inj hs'
  rcases Range.out_of_clamp hq hout with h | h <;> omega

lemma Region.stored_of_out (hbooks : s.books.Written) (hs : s.books.sheet? r.book r.sheet = some sheet)
    (hq : r.contains q = true) (hout : (r.clamp sheet).contains q = false) : s.stored q = .blank := by
  have hrows : maxRows ≤ Sheet.rowCountLimit := by decide
  have hcols : maxCols ≤ Sheet.colCountLimit := by decide
  have henclosed := (hbooks _ _ _ hs).enclosed
  simp only [Region.contains, clamp, Bool.and_eq_true, beq_iff_eq] at hq hout
  obtain ⟨⟨hbook, hsheet⟩, hq⟩ := hq
  rw [← hbook, ← hsheet, beq_self_eq_true, beq_self_eq_true, Bool.true_and, Bool.true_and] at hout
  have hnone : sheet.cell? q.row q.col = none := by
    by_contra hne
    obtain ⟨c, hc⟩ := Option.ne_none_iff_exists'.1 hne
    rcases Range.out_of_clamp hq hout with h | h
    · have hlt := henclosed.row _ _ _ hc (by omega)
      omega
    · have hlt := henclosed.col _ _ _ hc (by omega)
      omega
  rw [Snapshot.stored, Books.value?, ← hbook, ← hsheet, hs, Option.map_some, Sheet.value, hnone]
  rfl

end

namespace Pass

variable {s : Pass} {books : Books} {index : Index} {a q : Place} {v : Value}

/-- The pass has something to say about a cell. -/
def Knows (s : Pass) (q : Place) : Prop :=
  q ∈ s.cycles ∨ s.results[q]?.isSome ∨ q ∈ s.dirty ∨ s.spilled[q]?.isSome ∨ ∃ a, s.Over a q

/-- It has nothing to say about cells out of the bounds of their sheets. -/
def InBounds (s : Pass) (books : Books) : Prop := ∀ q, s.Knows q → books.Spans q

lemma over_of_dirtyAnchorOver? (h : s.dirtyAnchorOver? q = some a) : s.Over a q := by
  obtain ⟨⟨b, r⟩, hb, rfl⟩ := Option.map_eq_some_iff.1 h
  have hover := List.find?_some hb
  have hmem := List.mem_of_find?_eq_some hb
  simp only [Bool.and_eq_true, beq_iff_eq] at hover
  refine ⟨r, ExtTreeMap.mem_toList_iff_getElem?_eq_some.1 hmem, ?_⟩
  simp [Place.area, Region.contains, hover.1.1.1, hover.1.1.2, hover.1.2]

lemma knows_store (h : (s.store books index a v).Knows q) :
    s.Knows q ∨ q = a ∨ (s.store books index a v).Over a q := by
  by_cases hold : s.Over a q
  · exact Or.inl (Or.inr (Or.inr (Or.inr (Or.inr ⟨a, hold⟩))))
  by_cases hnew : (s.store books index a v).Over a q
  · exact Or.inr (Or.inr hnew)
  obtain ⟨w, -, hresults⟩ := s.results_store books index a v
  rcases h with h | h | h | h | ⟨b, h⟩
  · rw [cycles_store] at h
    exact Or.inl (Or.inl h)
  · rw [hresults] at h
    split at h
    · exact Or.inr (Or.inl ‹_›)
    · exact Or.inl (Or.inr (Or.inl h))
  · exact Or.inl (Or.inr (Or.inr (Or.inl (mem_dirty_store.1 h).2)))
  · rw [spilled_store_of_not_over hold hnew] at h
    exact Or.inl (Or.inr (Or.inr (Or.inr (Or.inl h))))
  · by_cases hb : b = a
    · exact absurd (hb ▸ h) hnew
    · exact Or.inl (Or.inr (Or.inr (Or.inr (Or.inr ⟨b, (over_store hb).1 h⟩))))

lemma InBounds.store (h : s.InBounds books) (ha : books.Spans a)
    (hnew : ∀ q, (s.store books index a v).Over a q → books.Spans q) : (s.store books index a v).InBounds books := by
  intro q hq
  rcases knows_store hq with hq | rfl | hq
  · exact h q hq
  · exact ha
  · exact hnew q hq

lemma not_over_store_of_still (hs : s.spillArrays = false) : ¬ (s.store books index a v).Over a q := by
  rintro ⟨r, hr, -⟩
  have hnone : (s.withdraw a).anchors[a]? = none := anchors_withdraw.trans (if_pos rfl)
  obtain ⟨g, rfl, -, -, -, heq⟩ := store_of_some hr
  have hrecord : s.store books index a (.array g) = (s.withdraw a).record a (.array g) := by
    simp [Pass.store, spillArrays_withdraw, hs]
  rw [hrecord] at hr
  exact Option.some_ne_none r (hr.symm.trans hnone)

end Pass

namespace Evaluator

open Eval

variable {s : Snapshot} {below : Evaluator} {scope : Scope} {t : Session} {r : Region} {sheet : Sheet} {q : Place}

/-- What is cut off from a reference reads as blank, or the pass knows of it. -/
theorem exec_readCell_of_out (hbooks : s.books.Written) (hs : s.books.sheet? r.book r.sheet = some sheet)
    (hq : r.contains q = true) (hout : (r.clamp sheet).contains q = false) (hknows : ¬ t.pass.Knows q) :
    exec (readCell s below q) scope t = (.ok .blank, t) := by
  simp only [Pass.Knows, not_or, Bool.not_eq_true, Option.isSome_eq_false_iff, Option.isNone_iff_eq_none] at hknows
  obtain ⟨hcycle, hresult, hclean, hspilled, hover⟩ := hknows
  have hanchor : t.pass.dirtyAnchorOver? q = none :=
    Option.eq_none_iff_forall_ne_some.2 fun a ha => hover ⟨a, Pass.over_of_dirtyAnchorOver? ha⟩
  rw [exec_readCell_quiet hresult hcycle ⟨hclean, hanchor⟩, hspilled, Option.getD_none,
    Region.stored_of_out hbooks hs hq hout]

/-- Whole columns and whole rows are read completely in a pass that stays in the bounds of the sheets. -/
theorem contains_clamp_of_read (hbooks : s.books.Written) (ht : t.pass.InBounds s.books)
    (hs : s.books.sheet? r.book r.sheet = some sheet) (hq : r.contains q = true)
    (hread : (exec (readCell s below q) scope t).1 ≠ .ok .blank) : (r.clamp sheet).contains q = true := by
  by_contra hout
  rw [Bool.not_eq_true] at hout
  have hknows : ¬ t.pass.Knows q := fun h => Region.not_spans_of_out hs hq hout (ht q h)
  rw [exec_readCell_of_out hbooks hs hq hout hknows] at hread
  exact hread rfl

/-- Where arrays do not spill and formulas lie inside their sheets, no evaluation leaves the bounds. -/
lemma admits_inBounds (hformulas : ∀ p e, s.formulas.cell? p = some e → s.books.Spans p) :
    Admits s (fun t => t.InBounds s.books ∧ t.spillArrays = false) fun _ _ => True := by
  refine admits_of_store fun t p e v he ⟨ht, hstill⟩ => ⟨?_, Pass.spillArrays_store.trans hstill⟩
  exact ht.store (hformulas p e he) fun q hq => absurd hq (Pass.not_over_store_of_still hstill)

/-- An array that spills out of the bounds of its sheet is cut off from whole columns. -/
theorem spilled_out_of_clamp {t : Pass} {a : Place} {g : Grid Value} {target : Range} (hspill : t.spillArrays = true)
    (hg : g.Regular) (hsize : 1 < g.size) (htarget : Pass.target? a g.rows g.cols = some target)
    (hfree : t.Free s.books s.formulas a target) (hq : (a.area target).contains q = true)
    (hrow : max sheet.rowCount 1 ≤ q.row) (hr : r.range.isWholeColumns = true) :
    (∃ v ∈ g.items, (t.store s.books s.formulas a (.array g)).spilled[q]? = some v) ∧
      (r.clamp sheet).contains q = false := by
  constructor
  · obtain ⟨v, hv⟩ := Pass.exists_item htarget hg (by omega) hq
    refine ⟨v, (List.of_mem_zip hv).2, ?_⟩
    rw [Pass.store_of_free hspill hsize htarget hfree]
    exact Pass.spilled_place_of_mem hv
  · rw [← Bool.not_eq_true, Region.contains, Region.clamp, Range.contains, Range.clamp, if_pos hr]
    simp only [Bool.and_eq_true, decide_eq_true_eq]
    omega

end Evaluator

/-- Without arrays that spill, formulas inside their sheets leave a pass in which whole columns and whole rows are read
completely. -/
theorem Interpreter.evaluate_reads_whole {s : Snapshot} {i j : Interpreter} {n : Node} {waits : Bool} {o : Option Value}
    (hrun : i.evaluate s n waits = (o, j)) (hbooks : s.books.Written)
    (hformulas : ∀ p e, s.formulas.cell? p = some e → s.books.Spans p) (hidle : i.Idle)
    (hpass : i.session.pass.InBounds s.books) (hstill : i.session.pass.spillArrays = false) {r : Region} {sheet : Sheet}
    {q : Place} (hs : s.books.sheet? r.book r.sheet = some sheet) (hq : r.contains q = true) (below : Evaluator)
    (scope : Scope) (hread : (Eval.exec (Evaluator.readCell s below q) scope j.session).1 ≠ .ok .blank) :
    (r.clamp sheet).contains q = true := by
  obtain ⟨⟨hafter, -⟩, -⟩ := Interpreter.evaluate_spec hrun (Evaluator.admits_inBounds hformulas) hidle ⟨hpass, hstill⟩
  exact Evaluator.contains_clamp_of_read hbooks hafter hs hq hread

end Spreadsheet
