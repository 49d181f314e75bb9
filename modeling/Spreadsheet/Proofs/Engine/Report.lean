import Spreadsheet.Engine.Calculation
import Spreadsheet.Proofs.Books

/-! What a calculation reports, and what its report leaves in the workbooks. -/

namespace Spreadsheet

open Std Dependency

namespace Calculation

variable {c : Calculation} {s : Pass} {again : List Place} {others : ItemMap Value} {p : Place} {v : Scalar}

lemma calculated_eq (c : Calculation) (again : List Place) :
    c.calculated again = c.plan.cells ++ again.filter (· ∉ c.plan.cells) := by
  have hplanned : ∀ p, (c.plan.cells.foldl (fun set q => set.insert q) (∅ : PlaceSet)).contains p =
      decide (p ∈ c.plan.cells) := fun p => by
    rw [Bool.eq_iff_iff, ExtTreeSet.contains_iff_mem, Table.mem_foldl_insert]
    simp
  simp only [calculated, hplanned, decide_not]

lemma mem_calculated : p ∈ c.calculated again ↔ p ∈ c.plan.cells ∨ p ∈ again := by
  rw [calculated_eq, List.mem_append, List.mem_filter, decide_eq_true_eq]
  tauto

lemma report_values : (c.report s again others).values[p]? = some v ↔
    (p ∈ c.plan.cycles ∨ p ∈ c.calculated again) ∧ ∃ w, s.results[p]? = some w ∧ w.toScalar = v := by
  have hl : ∀ l : List Place, ∀ a ∈ l.filterMap (fun p => s.results[p]?.map (p, ·)), s.results[a.1]? = some a.2 := by
    intro l a ha
    obtain ⟨p, _, ha⟩ := List.mem_filterMap.1 ha
    obtain ⟨w, hw, rfl⟩ := Option.map_eq_some_iff.1 ha
    exact hw
  have hsame : ∀ a ∈ (c.plan.cycles ++ c.calculated again).filterMap (fun p => s.results[p]?.map (p, ·)),
      ∀ b ∈ (c.plan.cycles ++ c.calculated again).filterMap (fun p => s.results[p]?.map (p, ·)),
      a.1 = b.1 → a.2.toScalar = b.2.toScalar := by
    intro a ha b hb hab
    have h : some a.2 = some b.2 := (hl _ a ha).symm.trans ((congrArg (s.results[·]?) hab).trans (hl _ b hb))
    rw [Option.some.inj h]
  refine (Table.mem_of_foldl_insert (fun a : Place × Value => a.1) hsame p v).trans ?_
  constructor
  · rintro ⟨a, ha, rfl, rfl⟩
    refine ⟨?_, a.2, hl _ a ha, rfl⟩
    obtain ⟨p, hp, ha⟩ := List.mem_filterMap.1 ha
    obtain ⟨w, _, rfl⟩ := Option.map_eq_some_iff.1 ha
    exact List.mem_append.1 hp
  · rintro ⟨hp, w, hw, rfl⟩
    exact ⟨(p, w), List.mem_filterMap.2 ⟨p, List.mem_append.2 hp, by rw [hw]; rfl⟩, rfl, rfl⟩

end Calculation

namespace Report

variable {r : Report} {b : Books}

lemma applyTo_eq : r.applyTo b = r.values.toList.foldl (fun b x => b.setCalculated x.1 x.2) b := by
  rw [applyTo, ExtTreeMap.foldl_eq_foldl_toList]
  rfl

lemma outline_applyTo : (r.applyTo b).outline = b.outline := by
  rw [applyTo_eq]
  induction r.values.toList generalizing b with
  | nil => rfl
  | cons x l ih => rw [List.foldl_cons, ih, Books.outline_setCalculated]

lemma formula?_applyTo (p : Place) : (r.applyTo b).formula? p = b.formula? p := by
  rw [applyTo_eq]
  induction r.values.toList generalizing b with
  | nil => rfl
  | cons x l ih => rw [List.foldl_cons, ih, Books.formula?_setCalculated]

lemma cell?_applyTo {p : Place} (hp : r.values[p]? = none) : (r.applyTo b).cell? p = b.cell? p := by
  have hne : ∀ x ∈ r.values.toList, p ≠ x.1 := by
    rintro ⟨q, v⟩ hx rfl
    rw [ExtTreeMap.mem_toList_iff_getElem?_eq_some, hp] at hx
    cases hx
  rw [applyTo_eq]
  generalize r.values.toList = l at hne
  induction l generalizing b with
  | nil => rfl
  | cons x l ih =>
    obtain ⟨hx, hl⟩ := List.forall_mem_cons.1 hne
    rw [List.foldl_cons, ih hl, Books.cell?_setCalculated, if_neg hx]

lemma value?_foldl_setCalculated {l : List (Place × Scalar)} (hl : (l.map (·.1)).Nodup) (p : Place) :
    (l.foldl (fun b x => b.setCalculated x.1 x.2) b).value? p =
      (b.value? p).map fun v => ((l.find? (·.1 == p)).map (·.2)).getD v := by
  induction l generalizing b with
  | nil => simp
  | cons x l ih =>
    obtain ⟨hx, hl⟩ := List.nodup_cons.1 hl
    rw [List.foldl_cons, ih hl, Books.value?_setCalculated, List.find?_cons]
    by_cases hp : p = x.1
    · subst hp
      have hnone : l.find? (·.1 == x.1) = none := by
        rw [List.find?_eq_none]
        intro y hy hxy
        exact hx (List.mem_map.2 ⟨y, hy, by simpa using hxy⟩)
      rw [if_pos rfl, Option.map_map, hnone]
      simp [Function.comp_def]
    · have hne : (x.1 == p) = false := by simpa using Ne.symm hp
      rw [if_neg hp, hne]

lemma value?_applyTo (p : Place) : (r.applyTo b).value? p = (b.value? p).map fun v => r.values[p]?.getD v := by
  rw [applyTo_eq, value?_foldl_setCalculated (by
    rw [ExtTreeMap.map_fst_toList_eq_keys]
    exact ExtTreeMap.nodup_keys)]
  rw [Table.find?_toList]

end Report

/-- The same cells but for what formulas have last given. -/
structure Books.SameInputs (b c : Books) : Prop where
  outline : b.outline = c.outline
  formula? : ∀ p, b.formula? p = c.formula? p
  value? : ∀ p, b.formula? p = none → b.value? p = c.value? p

namespace Books.SameInputs

variable {b c a : Books}

lemma refl (b : Books) : b.SameInputs b := ⟨rfl, fun _ => rfl, fun _ _ => rfl⟩

lemma symm (h : b.SameInputs c) : c.SameInputs b :=
  ⟨h.outline.symm, fun p => (h.formula? p).symm, fun p hp => (h.value? p ((h.formula? p).trans hp)).symm⟩

lemma trans (h : b.SameInputs c) (h' : c.SameInputs a) : b.SameInputs a :=
  ⟨h.outline.trans h'.outline, fun p => (h.formula? p).trans (h'.formula? p),
    fun p hp => (h.value? p hp).trans (h'.value? p ((h.formula? p).symm.trans hp))⟩

lemma setCell (h : b.SameInputs c) (p : Place) (cell : Cell) : (b.setCell p cell).SameInputs (c.setCell p cell) where
  outline := by rw [outline_setCell, outline_setCell, h.outline]
  formula? q := by
    have hs := isSome_sheet?_congr h.outline p.book p.sheet
    rw [formula?_setCell, formula?_setCell, h.formula?]
    split
    · cases hb : b.sheet? p.book p.sheet <;> cases hc : c.sheet? p.book p.sheet <;> simp_all
    · rfl
  value? q hq := by
    rw [formula?_setCell] at hq
    rw [value?_setCell, value?_setCell]
    by_cases hp : q = p
    · have hs : (b.value? p).isSome = (c.value? p).isSome := by
        rw [isSome_value?, isSome_value?, isSome_sheet?_congr h.outline]
      rw [if_pos hp, if_pos hp]
      cases hb : b.value? p <;> cases hc : c.value? p <;> simp_all
    · rw [if_neg hp] at hq ⊢
      rw [if_neg hp]
      exact h.value? q hq

lemma setCell_of_none {p : Place} (hs : b.sheet? p.book p.sheet = none) (cell : Cell) :
    b.SameInputs (b.setCell p cell) where
  outline := (outline_setCell cell).symm
  formula? q := by
    rw [formula?_setCell]
    split
    · rename_i hq
      simp [hq, Books.formula?, Books.cell?, hs]
    · rfl
  value? q _ := by
    rw [value?_setCell]
    split
    · rename_i hq
      simp [hq, Books.value?, hs]
    · rfl

end Books.SameInputs

lemma Report.sameInputs_applyTo {r : Report} {b : Books} (h : ∀ p, b.formula? p = none → r.values[p]? = none) :
    (r.applyTo b).SameInputs b where
  outline := outline_applyTo
  formula? := formula?_applyTo
  value? p hp := by
    rw [formula?_applyTo] at hp
    rw [value?_applyTo, h p hp]
    simp

end Spreadsheet
