import Spreadsheet.Proofs.Evaluation.Depth
import Spreadsheet.Proofs.Evaluation.Pass

/-! Cells that hold a value and have no formula: nothing comes to lie over them, and where nothing lies they read as
what is stored. -/

namespace Spreadsheet

open Std Dependency Formula

namespace Books

/-- A cell that is not empty. -/
def Occupied (b : Books) (x : Place) : Prop := ∃ cell, b.cell? x = some cell ∧ cell.isEmpty = false

lemma occupied_of_value? {b : Books} {x : Place} {v : Scalar} (h : b.value? x = some v) (hv : v ≠ .empty) :
    b.Occupied x := by
  obtain ⟨sheet, hs, rfl⟩ := Option.map_eq_some_iff.1 h
  rw [Sheet.value] at hv
  cases hc : sheet.cell? x.row x.col with
  | none =>
    rw [hc] at hv
    exact absurd rfl hv
  | some cell =>
    rw [hc] at hv
    refine ⟨cell, by rw [cell?, hs, Option.bind_some, hc], ?_⟩
    have hread : cell.read.isEmpty = false := by
      cases hr : cell.read with
      | empty => exact absurd hr hv
      | _ => rfl
    rw [Cell.isEmpty, hread, Bool.and_false]

end Books

namespace Pass

variable {s : Pass} {books : Books} {index : Index} {a p x : Place} {r : Range} {v w : Value} {old : PlaceMap Range}

lemma not_over_store (h : books.Occupied x) (hx : x ≠ a) : ¬ (s.store books index a v).Over a x := by
  rintro ⟨r, hr, hin⟩
  obtain ⟨cell, hcell, hempty⟩ := h
  obtain ⟨g, -, -, -, hfree, -⟩ := store_of_some hr
  rw [hfree.cell x hin hx cell hcell] at hempty
  cases hempty

/-- The pass has nothing of its own for a place, and nothing lies over it but arrays from before that are still to
be calculated. -/
structure Exposes (s : Pass) (old : PlaceMap Range) (x : Place) : Prop where
  result : s.results[x]? = none
  cycle : x ∉ s.cycles
  clean : x ∉ s.dirty
  spilled : ∀ w, s.spilled[x]? = some w → (∃ u, w = .ofScalar u) ∧ ∃ a, s.Over a x
  lying : ∀ a r, s.anchors[a]? = some r → (a.area r).contains x = true → a ∈ s.dirty ∧ old[a]? = some r

namespace Exposes

lemma not_over (h : s.Exposes ∅ x) (a : Place) : ¬ s.Over a x := by
  rintro ⟨r, hr, hx⟩
  simpa using (h.lying a r hr hx).2

lemma spilled_eq (h : s.Exposes ∅ x) : s.spilled[x]? = none := by
  rw [Option.eq_none_iff_forall_ne_some]
  intro w hw
  obtain ⟨-, a, ha⟩ := h.spilled w hw
  exact h.not_over a ha

lemma clear (h : s.Exposes old x) (hd : ∀ a, s.Over a x → a ∉ s.dirty) : s.Exposes ∅ x := by
  refine ⟨h.result, h.cycle, h.clean, h.spilled, fun a r hr hx => ?_⟩
  exact absurd (h.lying a r hr hx).1 (hd a ⟨r, hr, hx⟩)

lemma store (h : s.Exposes old x) (ho : books.Occupied x) (hx : x ≠ a) : (s.store books index a v).Exposes old x := by
  have hnew : ¬ (s.store books index a v).Over a x := not_over_store ho hx
  constructor
  case result => rw [results_store_of_ne hx, h.result]
  case cycle =>
    rw [cycles_store]
    exact h.cycle
  case clean =>
    rw [mem_dirty_store]
    exact fun hd => h.clean hd.2
  case spilled =>
    intro w hw
    by_cases hold : s.Over a x
    · obtain ⟨r, hr, hin⟩ := hold
      rw [spilled_store_of_left hr hin fun t ht => Bool.eq_false_iff.2 fun hin => hnew ⟨t, ht, hin⟩] at hw
      cases hw
    · rw [spilled_store_of_not_over hold hnew] at hw
      obtain ⟨hitem, b, hb⟩ := h.spilled w hw
      have hba : b ≠ a := fun heq => hold (heq ▸ hb)
      exact ⟨hitem, b, (over_store hba).2 hb⟩
  case lying =>
    intro b r hr hin
    have hba : b ≠ a := by
      rintro rfl
      exact hnew ⟨r, hr, hin⟩
    rw [anchors_store hba] at hr
    obtain ⟨hd, hold⟩ := h.lying b r hr hin
    exact ⟨mem_dirty_store.2 ⟨hba, hd⟩, hold⟩

lemma invalidate (h : s.Exposes old x) (hx : x ≠ p) : (s.invalidate p).Exposes old x := by
  unfold Pass.invalidate
  split
  · exact h
  · refine ⟨?_, h.cycle, ?_, h.spilled, fun a r hr hin => ?_⟩
    · simp only [ExtTreeMap.getElem?_erase, h.result, ite_self]
    · simpa [hx.symm] using h.clean
    · exact ⟨ExtTreeSet.mem_insert.2 (Or.inr (h.lying a r hr hin).1), (h.lying a r hr hin).2⟩

end Exposes

end Pass

/-- The value is not an array. -/
def Value.NotArray (v : Value) : Prop := ∀ g, v ≠ .array g

lemma Value.IsItem.notArray {v : Value} (h : v.IsItem) : v.NotArray := by
  rintro g rfl
  exact h

lemma Value.NotArray.settled {v : Value} (h : v.NotArray) : v.settled.NotArray := by
  cases v with
  | array g => exact absurd rfl (h g)
  | _ => exact fun g => nofun

/-- The formula is nothing but a reference to one cell, seen from a cell. -/
def Formula.Node.IsCell (p x : Place) : Node → Prop
  | reference _ book sheet range =>
    range.isSingle = true ∧ x = ⟨book.getD p.book, sheet.getD p.sheet, range.start.row, range.start.col⟩
  | _ => False

namespace Evaluator

open Eval

variable {snapshot : Snapshot} {below : Evaluator} {scope : Scope} {n : Node} {p x : Place} {J : Pass → Prop}
  {old : PlaceMap Range}

lemma readRegion_of_isSingle {r : Region} (h : r.range.isSingle = true)
    (hs : (snapshot.books.sheet? r.book r.sheet).isSome) :
    readRegion snapshot below r = readCell snapshot below ⟨r.book, r.sheet, r.range.start.row, r.range.start.col⟩ := by
  obtain ⟨sheet, hs⟩ := Option.isSome_iff_exists.1 hs
  rw [readRegion, hs]
  simp only [Range.clamp_of_isSingle h, h, if_true]

lemma exec_value_isCell (h : n.IsCell scope.cursor.place x) (hs : (snapshot.books.sheet? x.book x.sheet).isSome)
    (levels : Nat) (t : Session) : exec ((ofDepth snapshot (levels + 1)).value n) scope t =
      exec (readCell snapshot (ofDepth snapshot levels) x) scope t := by
  cases n with
  | reference span book sheet range =>
    obtain ⟨hsingle, rfl⟩ := h
    rw [← readRegion_of_isSingle (r := ⟨_, _, range⟩) hsingle hs]
    rfl
  | _ => exact h.elim

lemma exec_readCell_quiet {t : Session} (hresult : t.pass.results[x]? = none) (hcycle : x ∉ t.pass.cycles)
    (h : t.pass.Quiet x) : exec (readCell snapshot below x) scope t =
      (.ok (t.pass.spilled[x]?.getD (snapshot.stored x)), t) := by
  rw [readCell, exec_get_bind]
  simp only [Table.contains_eq_false hcycle, Table.contains_eq_false h.1, hresult, h.2, Bool.false_eq_true, if_false,
    settledValue, exec_get_bind, exec_pure]

lemma exec_value_quiet (hn : n.IsCell scope.cursor.place x) (hs : (snapshot.books.sheet? x.book x.sheet).isSome)
    {t : Session} (hresult : t.pass.results[x]? = none) (hcycle : x ∉ t.pass.cycles) (h : t.pass.Quiet x) :
    exec (snapshot.evaluator.value n) scope t = (.ok (t.pass.spilled[x]?.getD (snapshot.stored x)), t) :=
  (exec_value_isCell hn hs snapshot.depth t).trans (exec_readCell_quiet hresult hcycle h)

lemma exec_readCell_exposed {t : Session} (h : t.pass.Exposes ∅ x) :
    exec (readCell snapshot below x) scope t = (.ok (snapshot.stored x), t) := by
  have hanchor : t.pass.dirtyAnchorOver? x = none :=
    Pass.dirtyAnchorOver?_eq_none fun a r _ hr => Bool.eq_false_iff.2 fun hx => h.not_over a ⟨r, hr, hx⟩
  rw [exec_readCell_quiet h.result h.cycle ⟨h.clean, hanchor⟩, h.spilled_eq, Option.getD_none]

lemma exec_value_exposed (hn : n.IsCell scope.cursor.place x) (hs : (snapshot.books.sheet? x.book x.sheet).isSome)
    (levels : Nat) {t : Session} (h : t.pass.Exposes ∅ x) :
    exec ((ofDepth snapshot (levels + 1)).value n) scope t = (.ok (snapshot.stored x), t) := by
  rw [exec_value_isCell hn hs, exec_readCell_exposed h]

lemma exec_calculate_exposed {e : Entry} (he : snapshot.formulas.cell? p = some e) (hn : e.node.IsCell p x)
    (hs : (snapshot.books.sheet? x.book x.sheet).isSome) (hp : p ∉ scope.cells) (levels : Nat) {t : Session}
    (h : t.pass.Exposes ∅ x) : exec (calculate snapshot (ofDepth snapshot (levels + 1)) p) scope t =
      (.ok (snapshot.stored x),
        { t with pass := t.pass.store snapshot.books snapshot.formulas p (snapshot.stored x) }) := by
  have hitem : (snapshot.stored x).IsItem := by
    rw [ofScalar_stored]
    exact Value.isItem_ofScalar _
  have hv : exec ((ofDepth snapshot (levels + 1)).value e.node) (scope.enterCell (snapshot.books.cursor p)) t =
      (.ok (snapshot.stored x), t) := exec_value_exposed hn hs levels h
  have hresult : (t.pass.store snapshot.books snapshot.formulas p (snapshot.stored x)).results[p]? =
      some (snapshot.stored x) := by
    rw [Pass.store_of_not_array hitem.notArray, Pass.results_record, if_pos rfl]
  rw [exec_calculate_of_isFlat he hp hitem.isFlat hv, hresult, Option.getD_some]

lemma alike_settledValue (hJ : ∀ t, J t → t.Exposes old x) :
    Alike (fun t => J t.pass) Value.NotArray scope (settledValue snapshot x) (settledValue snapshot x) := by
  refine alike_get fun t ht => alike_pure ?_
  cases hw : t.pass.spilled[x]? with
  | none =>
    rw [Option.getD_none, ofScalar_stored]
    exact (Value.isItem_ofScalar _).notArray
  | some w =>
    obtain ⟨⟨u, rfl⟩, -⟩ := (hJ t.pass ht).spilled w hw
    exact (Value.isItem_ofScalar u).notArray

/-- Whatever may still lie over the cell, it does not read as an array. -/
lemma alike_readCell_exposed (hJ : ∀ t, J t → t.Exposes old x)
    (h : ∀ a, Due J a → InStep J scope (calculate snapshot below a) (calculate snapshot below a)) :
    Alike (fun t => J t.pass) Value.NotArray scope (readCell snapshot below x) (readCell snapshot below x) := by
  unfold readCell
  refine alike_get fun t ht => ?_
  have hx := hJ t.pass ht
  simp only [Table.contains_eq_false hx.cycle, Table.contains_eq_false hx.clean, hx.result, Bool.false_eq_true,
    if_false]
  cases ha : t.pass.dirtyAnchorOver? x with
  | none => exact alike_settledValue hJ
  | some a =>
    refine alike_bind (h a ⟨t.pass, ht, Pass.mem_dirty_of_dirtyAnchorOver? ha⟩) fun v _ => ?_
    split
    · rename_i hv
      refine alike_pure fun g hg => ?_
      rw [hg] at hv
      cases hv
    · exact alike_settledValue hJ

end Evaluator

end Spreadsheet
