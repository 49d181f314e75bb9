import Spreadsheet.Books
import Spreadsheet.Proofs.Matrix

/-! Edits of workbooks: what they change, and what they leave. -/

namespace Spreadsheet

open Std

variable {w : Workbook} {b c : Books} {p q : Place}

namespace Workbook

/-- The id and name of a workbook and of its sheets. -/
def outline (w : Workbook) : String × String × List (String × String) :=
  (w.id, w.name, w.sheets.map fun s => (s.id, s.name))

lemma sheet?_modifySheet {f : Sheet → Sheet} (hf : ∀ s, (f s).id = s.id) (id i : String) :
    (w.modifySheet id f).sheet? i = if i = id then (w.sheet? i).map f else w.sheet? i := by
  simp only [sheet?, modifySheet]
  induction w.sheets with
  | nil => simp [modifySheetIn]
  | cons s rest ih =>
    by_cases hs : s.id = id <;> by_cases hi : s.id = i <;> grind [modifySheetIn]

lemma outline_modifySheet {f : Sheet → Sheet} (hf : ∀ s, (f s).id = s.id ∧ (f s).name = s.name) (id : String) :
    (w.modifySheet id f).outline = w.outline := by
  simp only [outline, modifySheet, Prod.mk.injEq, true_and]
  induction w.sheets with
  | nil => rfl
  | cons s rest ih =>
    simp only [modifySheetIn]
    split
    · simp [hf]
    · simp [ih]

lemma isSome_sheet? (i : String) : (w.sheet? i).isSome = w.outline.2.2.any (·.1 == i) := by
  rw [sheet?, List.isSome_find?, outline, List.any_map]
  rfl

lemma sheet?_of_mem (hw : (w.sheets.map (·.id)).Nodup) {s : Sheet} (hs : s ∈ w.sheets) :
    w.sheet? s.id = some s := by
  rw [sheet?]
  generalize w.sheets = sheets at hw hs
  induction sheets with
  | nil => cases hs
  | cons t rest ih =>
    obtain ⟨ht, hw⟩ := List.nodup_cons.1 hw
    rcases List.mem_cons.1 hs with rfl | hs
    · simp
    · have hne : t.id ≠ s.id := fun h => ht (List.mem_map.2 ⟨s, hs, h.symm⟩)
      rw [List.find?_cons_of_neg (by simpa using hne)]
      exact ih hw hs

end Workbook

namespace Books

def formula? (b : Books) (p : Place) : Option StoredFormula := (b.cell? p).bind (·.formula)

/-- Puts a cell at a place, if its sheet exists. -/
def setCell (b : Books) (p : Place) (cell : Cell) : Books :=
  b.modifySheet p.book p.sheet (·.setCell p.row p.col cell)

def setCalculated (b : Books) (p : Place) (v : Scalar) : Books :=
  b.modifySheet p.book p.sheet (·.setCalculated p.row p.col v)

lemma sheet?_modifySheet {f : Sheet → Sheet} (hf : ∀ s, (f s).id = s.id) (book sheet k i : String) :
    (b.modifySheet book sheet f).sheet? k i =
      if k = book ∧ i = sheet then (b.sheet? k i).map f else b.sheet? k i := by
  simp only [sheet?, book?, modifySheet, modifyBook, ExtTreeMap.getElem?_modify, Std.compare_eq_iff_eq]
  by_cases hk : book = k
  · subst hk
    simp only [if_true]
    cases b.byId[book]? with
    | none => simp
    | some w => simp [Workbook.sheet?_modifySheet hf]
  · simp [hk, Ne.symm hk]

/-! Outlines: the ids and names, which edits of cells leave alone. -/

def outline (b : Books) : ExtTreeMap String (String × String × List (String × String)) :=
  b.byId.map fun _ w => w.outline

lemma outline_modifySheet {f : Sheet → Sheet} (hf : ∀ s, (f s).id = s.id ∧ (f s).name = s.name)
    (book sheet : String) : (b.modifySheet book sheet f).outline = b.outline := by
  refine ExtTreeMap.ext_getElem? fun k => ?_
  simp only [outline, modifySheet, modifyBook, ExtTreeMap.getElem?_map, ExtTreeMap.getElem?_modify,
    Std.compare_eq_iff_eq]
  split
  · rename_i h
    subst h
    simp [Function.comp_def, Workbook.outline_modifySheet hf]
  · rfl

lemma outline_setCell (cell : Cell) : (b.setCell p cell).outline = b.outline :=
  outline_modifySheet (f := (·.setCell p.row p.col cell)) (fun _ => ⟨rfl, rfl⟩) _ _

lemma outline_setCalculated (v : Scalar) : (b.setCalculated p v).outline = b.outline :=
  outline_modifySheet (f := (·.setCalculated p.row p.col v)) (fun _ => ⟨rfl, rfl⟩) _ _

lemma map_outline_toList : b.toList.map Workbook.outline = b.outline.toList.map (·.2) := by
  rw [toList, Table.values_eq, outline, ExtTreeMap.toList_map, List.map_map, List.map_map]
  rfl

lemma nameTable_eq_foldl : b.nameTable = (b.toList.map Workbook.outline).foldl (fun t o =>
    o.2.2.foldl (fun t s => t.insert o.1 s.2 s.1) (t.insertBook o.2.1 o.1)) NameTable.empty := by
  rw [nameTable, List.foldl_map]
  simp only [Workbook.outline, List.foldl_map]

lemma nameTable_congr (h : b.outline = c.outline) : b.nameTable = c.nameTable := by
  rw [nameTable_eq_foldl, nameTable_eq_foldl, map_outline_toList, map_outline_toList, h]

lemma isSome_sheet? (k i : String) :
    (b.sheet? k i).isSome = (b.outline[k]?.map fun o => o.2.2.any (·.1 == i)).getD false := by
  rw [sheet?, book?, outline, ExtTreeMap.getElem?_map]
  cases b.byId[k]? with
  | none => rfl
  | some w => simp [Workbook.isSome_sheet?]

lemma isSome_sheet?_congr (h : b.outline = c.outline) (k i : String) :
    (b.sheet? k i).isSome = (c.sheet? k i).isSome := by
  rw [isSome_sheet?, isSome_sheet?, h]

/-- Every workbook is found under its id, and no two sheets of one share theirs. -/
structure Proper (b : Books) : Prop where
  id : ∀ k w, b.book? k = some w → w.id = k
  sheets : ∀ k w, b.book? k = some w → (w.sheets.map (·.id)).Nodup

lemma proper_iff : b.Proper ↔ ∀ (k : String) (o : String × String × List (String × String)),
    b.outline[k]? = some o → o.1 = k ∧ (o.2.2.map (·.1)).Nodup := by
  constructor
  · intro h k o ho
    rw [outline, ExtTreeMap.getElem?_map, Option.map_eq_some_iff] at ho
    obtain ⟨w, hw, rfl⟩ := ho
    exact ⟨h.id k w hw, by simpa [Workbook.outline, Function.comp_def] using h.sheets k w hw⟩
  · intro h
    have hw : ∀ k w, b.book? k = some w → w.id = k ∧ (w.sheets.map (·.id)).Nodup := fun k w hw => by
      have ho := h k w.outline (by rw [outline, ExtTreeMap.getElem?_map, show b.byId[k]? = some w from hw]; rfl)
      exact ⟨ho.1, by simpa [Workbook.outline, Function.comp_def] using ho.2⟩
    exact ⟨fun k w h => (hw k w h).1, fun k w h => (hw k w h).2⟩

lemma Proper.congr (h : b.Proper) (ho : c.outline = b.outline) : c.Proper := by
  rw [proper_iff] at h ⊢
  rwa [ho]

lemma proper_empty : Proper empty := by
  constructor <;> intro k w hw <;> simp [empty, book?] at hw

lemma Proper.insert (h : b.Proper) {w : Workbook} (hw : (w.sheets.map (·.id)).Nodup) : (b.insert w).Proper := by
  have hinsert : ∀ k v, (b.insert w).book? k = some v → v = w ∧ w.id = k ∨ b.book? k = some v := by
    intro k v hv
    simp only [book?, Books.insert, ExtTreeMap.getElem?_insert, Std.compare_eq_iff_eq] at hv
    split at hv
    · rename_i hk
      exact Or.inl ⟨(Option.some.inj hv).symm, hk⟩
    · exact Or.inr hv
  constructor
  · intro k v hv
    rcases hinsert k v hv with ⟨rfl, hk⟩ | hv
    · exact hk
    · exact h.id k v hv
  · intro k v hv
    rcases hinsert k v hv with ⟨rfl, _⟩ | hv
    · exact hw
    · exact h.sheets k v hv

lemma proper_ofList {l : List Workbook} (hl : ∀ w ∈ l, (w.sheets.map (·.id)).Nodup) : (ofList l).Proper := by
  have hfold : ∀ b : Books, b.Proper → (l.foldl Books.insert b).Proper := by
    induction l with
    | nil => exact fun _ h => h
    | cons w l ih =>
      rw [List.forall_mem_cons] at hl
      exact fun b h => ih hl.2 _ (h.insert hl.1)
  exact hfold _ proper_empty

/-! Cells. -/

lemma cell?_modifySheet {f : Sheet → Sheet} (hf : ∀ s, (f s).id = s.id) (book sheet : String) :
    (b.modifySheet book sheet f).cell? q =
      if q.book = book ∧ q.sheet = sheet then (b.sheet? q.book q.sheet).bind fun s => (f s).cell? q.row q.col
      else b.cell? q := by
  rw [cell?, sheet?_modifySheet hf]
  split
  · rw [Option.bind_map]
    rfl
  · rfl

lemma cell?_setCell (cell : Cell) : (b.setCell p cell).cell? q =
    if q = p then (b.sheet? p.book p.sheet).bind fun _ => if cell.isEmpty then none else some cell
    else b.cell? q := by
  rw [setCell, cell?_modifySheet (f := (·.setCell p.row p.col cell)) fun _ => rfl]
  by_cases hq : q = p
  · subst hq
    simp only [and_self, if_true, Sheet.cell?, Sheet.setCell, Sheet.growTo]
    congr 1
    funext s
    split
    · simp [Matrix.get?_erase]
    · simp [Matrix.get?_insert]
  · rw [if_neg hq]
    split
    · rename_i hs
      have hne : ¬ (p.row = q.row ∧ p.col = q.col) := by
        rintro ⟨hr, hc⟩
        exact hq (by cases p; cases q; simp_all)
      simp only [cell?, Sheet.cell?, Sheet.setCell, Sheet.growTo]
      congr 1
      funext s
      split
      · simp [Matrix.get?_erase, hne]
      · simp [Matrix.get?_insert, hne]
    · rfl

lemma cell?_setCalculated (v : Scalar) : (b.setCalculated p v).cell? q =
    if q = p then (b.sheet? p.book p.sheet).map fun _ => { value := some v, formula := b.formula? p }
    else b.cell? q := by
  rw [setCalculated, cell?_modifySheet (f := (·.setCalculated p.row p.col v)) fun _ => rfl]
  by_cases hq : q = p
  · subst hq
    simp only [and_self, if_true, formula?, cell?, Sheet.cell?, Sheet.setCalculated, Sheet.growTo,
      Matrix.get?_insert]
    cases b.sheet? q.book q.sheet <;> rfl
  · rw [if_neg hq]
    split
    · rename_i hs
      have hne : ¬ (p.row = q.row ∧ p.col = q.col) := by
        rintro ⟨hr, hc⟩
        exact hq (by cases p; cases q; simp_all)
      simp [cell?, Sheet.cell?, Sheet.setCalculated, Sheet.growTo, Matrix.get?_insert, hne]
    · rfl

lemma value?_eq : b.value? q =
    (b.sheet? q.book q.sheet).map fun _ => ((b.cell? q).map Cell.read).getD .empty := by
  rw [value?, cell?]
  cases b.sheet? q.book q.sheet with
  | none => rfl
  | some s =>
    simp only [Option.map_some, Option.bind_some, Sheet.value]
    cases s.cell? q.row q.col <;> rfl

lemma isSome_value? : (b.value? q).isSome = (b.sheet? q.book q.sheet).isSome := by
  rw [value?_eq, Option.isSome_map]

lemma value?_congr {q : Place} (ho : b.outline = c.outline)
    (hc : ((b.cell? q).map Cell.read).getD .empty = ((c.cell? q).map Cell.read).getD .empty) :
    b.value? q = c.value? q := by
  have hs := isSome_sheet?_congr ho q.book q.sheet
  rw [value?_eq, value?_eq, hc]
  cases hb : b.sheet? q.book q.sheet <;> cases hc' : c.sheet? q.book q.sheet <;> simp_all

lemma value?_setCell (cell : Cell) : (b.setCell p cell).value? q =
    if q = p then (b.value? p).map fun _ => cell.read else b.value? q := by
  by_cases hq : q = p
  · subst hq
    have hs := isSome_sheet?_congr (outline_setCell (b := b) (p := q) cell) q.book q.sheet
    rw [if_pos rfl, value?_eq, value?_eq, cell?_setCell, if_pos rfl]
    cases hb : b.sheet? q.book q.sheet with
    | none => simp_all
    | some s =>
      obtain ⟨t, ht⟩ := Option.isSome_iff_exists.1 (hs.trans (by rw [hb]; rfl))
      rw [ht]
      by_cases he : cell.isEmpty = true
      · have hread : cell.read = .empty := by
          simp only [Cell.isEmpty, Bool.and_eq_true] at he
          cases h : cell.read <;> simp_all [Scalar.isEmpty]
        simp [he, hread]
      · simp [he]
  · rw [if_neg hq]
    exact value?_congr (outline_setCell cell) (by rw [cell?_setCell, if_neg hq])

lemma formula?_setCell (cell : Cell) : (b.setCell p cell).formula? q =
    if q = p then (b.sheet? p.book p.sheet).bind fun _ => cell.formula else b.formula? q := by
  rw [formula?, cell?_setCell]
  split
  · cases b.sheet? p.book p.sheet with
    | none => rfl
    | some s =>
      simp only [Option.bind_some]
      split
      · rename_i he
        simp only [Cell.isEmpty, Bool.and_eq_true, Option.isNone_iff_eq_none] at he
        simp [he.1]
      · rfl
  · rfl

lemma value?_setCalculated (v : Scalar) : (b.setCalculated p v).value? q =
    if q = p then (b.value? p).map fun _ => v else b.value? q := by
  by_cases hq : q = p
  · subst hq
    have hs := isSome_sheet?_congr (outline_setCalculated (b := b) (p := q) v) q.book q.sheet
    rw [if_pos rfl, value?_eq, value?_eq, cell?_setCalculated, if_pos rfl]
    cases hb : b.sheet? q.book q.sheet with
    | none => simp_all
    | some s =>
      obtain ⟨t, ht⟩ := Option.isSome_iff_exists.1 (hs.trans (by rw [hb]; rfl))
      simp [ht, Cell.read]
  · rw [if_neg hq]
    exact value?_congr (outline_setCalculated v) (by rw [cell?_setCalculated, if_neg hq])

lemma formula?_setCalculated (v : Scalar) : (b.setCalculated p v).formula? q = b.formula? q := by
  rw [formula?, cell?_setCalculated]
  split
  · rename_i hq
    subst hq
    cases hb : b.sheet? q.book q.sheet with
    | none => simp [formula?, cell?, hb]
    | some s => rfl
  · rfl

end Books

/-! The formulas of a sheet. -/

lemma Sheet.mem_formulas {s : Sheet} {p : Position} {f : StoredFormula} :
    (p, f) ∈ s.formulas ↔ ∃ cell, s.cell? p.row p.col = some cell ∧ cell.formula = some f := by
  simp only [formulas, List.mem_filterMap, Prod.exists, Matrix.mem_toList, Option.map_eq_some_iff, Prod.mk.injEq, cell?]
  constructor
  · rintro ⟨q, cell, hc, g, hg, rfl, rfl⟩
    exact ⟨cell, hc, hg⟩
  · rintro ⟨cell, hc, hf⟩
    exact ⟨p, cell, hc, f, hf, rfl, rfl⟩

lemma Matrix.mem_toList_ofList {α : Type} {l : List (Position × α)}
    (hl : ∀ x ∈ l, ∀ y ∈ l, x.1 = y.1 → x.2 = y.2) (p : Position) (a : α) :
    (p, a) ∈ (Matrix.ofList l).toList ↔ (p, a) ∈ l := by
  rw [Matrix.mem_toList, (Matrix.Refines.ofList l).get?, ExtTreeMap.ofList_eq_foldl]
  refine (Table.mem_of_foldl_insert (fun x : Position × α => x.1) hl p a).trans ?_
  constructor
  · rintro ⟨x, hx, rfl, rfl⟩
    exact hx
  · intro h
    exact ⟨_, h, rfl, rfl⟩

lemma Sheet.mem_toList_formulas {s : Sheet} {p : Position} {f : StoredFormula} :
    (p, f) ∈ (Matrix.ofList s.formulas).toList ↔ (p, f) ∈ s.formulas := by
  refine Matrix.mem_toList_ofList ?_ p f
  rintro ⟨q, f⟩ hf ⟨_, g⟩ hg rfl
  obtain ⟨cell, hc, hf⟩ := Sheet.mem_formulas.1 hf
  obtain ⟨cell', hc', hg⟩ := Sheet.mem_formulas.1 hg
  obtain rfl := Option.some.inj (hc.symm.trans hc')
  exact Option.some.inj (hf.symm.trans hg)

lemma Books.formula?_eq_some {b : Books} {p : Place} {f : StoredFormula} : b.formula? p = some f ↔
    ∃ s, b.sheet? p.book p.sheet = some s ∧ (p.position, f) ∈ s.formulas := by
  simp only [formula?, cell?, Option.bind_eq_some_iff, Sheet.mem_formulas]
  constructor
  · rintro ⟨cell, ⟨s, hs, hc⟩, hf⟩
    exact ⟨s, hs, cell, hc, hf⟩
  · rintro ⟨s, hs, cell, hc, hf⟩
    exact ⟨cell, ⟨s, hs, hc⟩, hf⟩

lemma Books.forall_formula? {b : Books} (hb : b.Proper) {P : Place → StoredFormula → Prop}
    (h : ∀ w ∈ b.toList, ∀ s ∈ w.sheets, ∀ x ∈ s.formulas, P ⟨w.id, s.id, x.1.row, x.1.col⟩ x.2) (p : Place)
    (f : StoredFormula) (hf : b.formula? p = some f) : P p f := by
  obtain ⟨s, hs, hx⟩ := Books.formula?_eq_some.1 hf
  obtain ⟨w, hw, hs⟩ := Option.bind_eq_some_iff.1 hs
  have hid : s.id = p.sheet := by simpa using List.find?_some hs
  have hp := h w ?_ s (List.mem_of_find?_eq_some hs) _ hx
  · rw [hb.id _ _ hw, hid] at hp
    exact hp
  · rw [toList, Table.mem_values]
    exact ⟨_, hw⟩

lemma Books.isSome_sheet?_of_formula? {b : Books} {p : Place} {f : StoredFormula} (h : b.formula? p = some f) :
    (b.sheet? p.book p.sheet).isSome = true := by
  obtain ⟨s, hs, -⟩ := Books.formula?_eq_some.1 h
  rw [hs]
  rfl

end Spreadsheet
