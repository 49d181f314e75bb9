import Spreadsheet.Proofs.Engine.Reordered
import Spreadsheet.Proofs.Engine.Seed
import Spreadsheet.Proofs.NameTable

/-! Walks through the workbooks, the formulas and the arrays come to the same in any order. Of workbooks that means that no two
of them have names that agree in upper case; of arrays that a cell asks for, that no two of them that are still to be
calculated cover it. -/

namespace Spreadsheet

open Std Text Dependency Formula

namespace NameTable

variable {t : NameTable} {v w : Workbook}

/-- Enters a workbook with its sheets. -/
def enter (t : NameTable) (w : Workbook) : NameTable := (t.insertBook w.name w.id).insertSheets w

lemma insert_comm (t : NameTable) {book book' : String} (h : book ≠ book') (name id name' id' : String) :
    (t.insert book name id).insert book' name' id' = (t.insert book' name' id').insert book name id := by
  simp only [insert, insertKey, ExtTreeMap.getElem?_insert, Std.compare_eq_iff_eq, h, h.symm, if_false]
  rw [Table.insert_comm _ (a := (book, _)) (b := (book', _)) h]

lemma insertSheets_insert (h : v.id ≠ w.id) (t : NameTable) (name id : String) :
    (t.insert v.id name id).insertSheets w = (t.insertSheets w).insert v.id name id := by
  rw [insertSheets, insertSheets]
  exact List.foldl_hom (fun t : NameTable => t.insert v.id name id) fun t s => t.insert_comm h name id s.name s.id

lemma insertSheets_comm (h : v.id ≠ w.id) (t : NameTable) :
    (t.insertSheets v).insertSheets w = (t.insertSheets w).insertSheets v := by
  have hfold : ∀ t, insertSheets v t = v.sheets.foldl (fun t s => t.insert v.id s.name s.id) t := fun _ => rfl
  rw [hfold, hfold]
  exact (List.foldl_hom (insertSheets w) fun t s => (insertSheets_insert h t s.name s.id).symm).symm

lemma insertSheets_insertBook (t : NameTable) (w : Workbook) (name id : String) :
    (t.insertBook name id).insertSheets w = (t.insertSheets w).insertBook name id := by
  rw [insertSheets, insertSheets]
  exact List.foldl_hom (fun t : NameTable => t.insertBook name id) fun _ _ => rfl

lemma enter_comm (hid : v.id ≠ w.id) (hname : upper v.name ≠ upper w.name) (t : NameTable) :
    (t.enter v).enter w = (t.enter w).enter v := by
  have hbooks : (t.insertBook v.name v.id).insertBook w.name w.id = (t.insertBook w.name w.id).insertBook v.name v.id := by
    simp only [insertBook]
    rw [Table.insert_comm _ (a := (upper v.name, v.id)) (b := (upper w.name, w.id)) hname]
  calc (t.enter v).enter w
      = (((t.insertBook v.name v.id).insertBook w.name w.id).insertSheets v).insertSheets w := by
        rw [enter, enter, ← insertSheets_insertBook]
    _ = (((t.insertBook w.name w.id).insertBook v.name v.id).insertSheets w).insertSheets v := by
        rw [hbooks, insertSheets_comm hid]
    _ = (t.enter w).enter v := by rw [enter, enter, ← insertSheets_insertBook]

end NameTable

namespace Books

variable {b : Books} {l : List Workbook}

lemma nameTable_eq_enter (b : Books) : b.nameTable = b.toList.foldl NameTable.enter NameTable.empty := rfl

theorem nameTable_of_perm (hb : b.Proper) (hnames : ∀ v ∈ b.toList, ∀ w ∈ b.toList, upper v.name = upper w.name → v = w)
    (h : l.Perm b.toList) : l.foldl NameTable.enter NameTable.empty = b.nameTable := by
  rw [nameTable_eq_enter]
  refine h.foldl_eq' (fun v hv w hw t => ?_) _
  have hv := h.mem_iff.1 hv
  have hw := h.mem_iff.1 hw
  by_cases hname : upper v.name = upper w.name
  · rw [hnames v hv w hw hname]
  · refine NameTable.enter_comm (fun hid => hname ?_) hname t
    obtain ⟨k, hk⟩ := Table.mem_values.1 hv
    obtain ⟨i, hi⟩ := Table.mem_values.1 hw
    have hki : k = i := (hb.id k v hk).symm.trans (hid.trans (hb.id i w hi))
    rw [hki, hi] at hk
    rw [Option.some.inj hk]

end Books

theorem Config.FormulaTable.ofBooks_of_perm {b : Books} (hb : b.Proper) {l : List ((String × String) × Matrix StoredFormula)}
    (h : l.Perm (sources b)) : l.foldl (fun t x => insert t x.1.1 x.1.2 x.2) ∅ = ofBooks b := by
  rw [ofBooks_eq]
  refine h.foldl_eq' (fun x hx y hy t => ?_) _
  by_cases hxy : x.1 = y.1
  · obtain ⟨s, hs, -, hx⟩ := (mem_sources hb).1 (h.mem_iff.1 hx)
    obtain ⟨u, hu, -, hy⟩ := (mem_sources hb).1 (h.mem_iff.1 hy)
    rw [hxy, hu] at hs
    rw [Prod.ext hxy (hx.trans ((Option.some.inj hs).symm ▸ hy.symm))]
  · exact insert_insert hxy x.2 y.2

lemma Pass.addSpill_comm (s : Pass) (c : Config) {y z : Place × Range} (h : y.1 ≠ z.1) :
    (s.addSpill y.1 y.2 (c.arrayValuesIn (y.1.area y.2))).addSpill z.1 z.2 (c.arrayValuesIn (z.1.area z.2)) =
      (s.addSpill z.1 z.2 (c.arrayValuesIn (z.1.area z.2))).addSpill y.1 y.2 (c.arrayValuesIn (y.1.area y.2)) := by
  have hspilled : ∀ x : Place,
      ((s.addSpill y.1 y.2 (c.arrayValuesIn (y.1.area y.2))).addSpill z.1 z.2 (c.arrayValuesIn (z.1.area z.2))).spilled[x]? =
        ((s.addSpill z.1 z.2 (c.arrayValuesIn (z.1.area z.2))).addSpill y.1 y.2 (c.arrayValuesIn (y.1.area y.2))).spilled[x]? := by
    intro x
    refine Option.ext fun v => ?_
    rw [spilled_addSpill, spilled_addSpill, spilled_addSpill, spilled_addSpill]
    grind
  exact congrArg₂ (fun anchors spilled => { s with anchors, spilled }) (Table.insert_comm s.anchors h)
    (ExtTreeMap.ext_getElem? hspilled)

namespace Calculation

variable {c : Config} {o : Options} {l : List (Place × Range)}

/-- Arrays that have spilled before may be taken over in any order, also those that lie over one another. -/
theorem seededPass_of_perm (h : l.Perm c.arrayRanges.toList) :
    l.foldl (fun s y => s.addSpill y.1 y.2 (c.arrayValuesIn (y.1.area y.2))) { spillArrays := o.spillArrays } =
      seededPass c o := by
  rw [seededPass_eq]
  refine h.foldl_eq' (fun y hy z hz s => ?_) _
  by_cases hyz : y.1 = z.1
  · have hy := ExtTreeMap.mem_toList_iff_getElem?_eq_some.1 (h.mem_iff.1 hy)
    have hz := ExtTreeMap.mem_toList_iff_getElem?_eq_some.1 (h.mem_iff.1 hz)
    rw [hyz, hz] at hy
    rw [Prod.ext hyz (Option.some.inj hy).symm]
  · exact s.addSpill_comm c hyz

end Calculation

lemma find?_eq_of_perm {α : Type} {l l' : List α} (h : l.Perm l') {f : α → Bool}
    (hone : ∀ a ∈ l, ∀ b ∈ l, f a = true → f b = true → a = b) : l.find? f = l'.find? f := by
  cases ha : l.find? f with
  | none =>
    rw [List.find?_eq_none] at ha
    exact (List.find?_eq_none.2 fun b hb => ha b (h.mem_iff.2 hb)).symm
  | some a =>
    have hmem := List.mem_of_find?_eq_some ha
    have hfound := List.find?_some ha
    obtain ⟨b, hb⟩ := Option.isSome_iff_exists.1 (List.find?_isSome.2 ⟨a, h.mem_iff.1 hmem, hfound⟩)
    rw [hb, hone a hmem b (h.mem_iff.2 (List.mem_of_find?_eq_some hb)) hfound (List.find?_some hb)]

namespace Pass

variable {s : Pass} {p : Place} {l : List (Place × Range)}

/-- Which anchor is found over a cell does not depend on the order of the arrays, if no two of those that are still to be
calculated cover it. -/
theorem dirtyAnchorOver?_of_perm (halone : ∀ a b, s.Over a p → s.Over b p → a ∈ s.dirty → b ∈ s.dirty → a = b)
    (h : l.Perm s.anchors.toList) :
    (l.find? fun y => y.1.book == p.book && y.1.sheet == p.sheet && y.2.contains p.row p.col && s.dirty.contains y.1).map (·.1) =
      s.dirtyAnchorOver? p := by
  have hover : ∀ y ∈ l, (y.1.book == p.book && y.1.sheet == p.sheet && y.2.contains p.row p.col && s.dirty.contains y.1) = true →
      s.anchors[y.1]? = some y.2 ∧ s.Over y.1 p ∧ y.1 ∈ s.dirty := by
    intro y hy hf
    have hanchor := ExtTreeMap.mem_toList_iff_getElem?_eq_some.1 (h.mem_iff.1 hy)
    obtain ⟨hcovers, hdirty⟩ := Bool.and_eq_true_iff.1 hf
    exact ⟨hanchor, ⟨y.2, hanchor, hcovers⟩, ExtTreeSet.contains_iff_mem.1 hdirty⟩
  refine congrArg (Option.map (·.1)) (find?_eq_of_perm h fun y hy z hz hfy hfz => ?_)
  obtain ⟨hy, hovery, hdirtyy⟩ := hover y hy hfy
  obtain ⟨hz, hoverz, hdirtyz⟩ := hover z hz hfz
  have hyz := halone y.1 z.1 hovery hoverz hdirtyy hdirtyz
  rw [hyz, hz] at hy
  exact Prod.ext hyz (Option.some.inj hy).symm

end Pass

end Spreadsheet
