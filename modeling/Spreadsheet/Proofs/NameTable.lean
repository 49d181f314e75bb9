import Mathlib.Data.List.Pairwise
import Spreadsheet.Proofs.Books

/-! What the table of names answers for the sheets of workbooks whose sheets were added one after the other. -/

namespace Spreadsheet

open Std Text

variable {w w' : Workbook} {b : Books} {book name : String}

namespace Workbook

/-- A workbook to which sheets were added, and then written into. -/
inductive Built : Workbook → Prop
  | new (id name : String) : Built { id, name }
  | addSheet {w w' : Workbook} {s : Sheet} : Built w → w.addSheet s = .ok w' → Built w'
  | modifySheet {w : Workbook} (id : String) (f : Sheet → Sheet) (hf : ∀ s, (f s).id = s.id ∧ (f s).name = s.name) :
      Built w → Built (w.modifySheet id f)
  | define {w w' : Workbook} {d : DefinedName} : Built w → w.define d = .ok w' → Built w'

/-- The sheets have different ids, and names that differ in more than the case of `a`-`z`. -/
def Distinct (w : Workbook) : Prop := w.outline.2.2.Pairwise fun a b => a.1 ≠ b.1 ∧ sameLetters a.2 b.2 = false

lemma Distinct.addSheet {s : Sheet} (hw : w.Distinct) (h : w.addSheet s = .ok w') : w'.Distinct := by
  unfold Workbook.addSheet at h
  split at h
  · cases h
  rename_i hname
  split at h
  · cases h
  rename_i hid
  obtain rfl := Except.ok.inj h
  have hnew : ∀ u ∈ w.sheets, u.id ≠ s.id ∧ sameLetters u.name s.name = false := fun u hu =>
    ⟨fun heq => hid (List.find?_isSome.2 ⟨u, hu, beq_iff_eq.2 heq⟩),
      Bool.eq_false_iff.2 fun heq => hname (List.find?_isSome.2 ⟨u, hu, heq⟩)⟩
  have houtline : ({ w with sheets := w.sheets ++ [s] } : Workbook).outline.2.2 = w.outline.2.2 ++ [(s.id, s.name)] := by
    simp [outline]
  rw [Distinct, houtline, List.pairwise_append]
  refine ⟨hw, List.pairwise_singleton _ _, fun a ha b hb => ?_⟩
  obtain rfl := List.mem_singleton.1 hb
  obtain ⟨u, hu, rfl⟩ := List.mem_map.1 ha
  exact hnew u hu

lemma Built.distinct (h : w.Built) : w.Distinct := by
  induction h with
  | new id name => exact List.Pairwise.nil
  | addSheet _ hadd ih => exact ih.addSheet hadd
  | modifySheet id f hf _ ih => rwa [Distinct, outline_modifySheet hf]
  | define _ hdefine ih =>
    unfold Workbook.define at hdefine
    split at hdefine
    · obtain rfl := Except.ok.inj hdefine
      exact ih
    · cases hdefine

lemma Distinct.nodup (h : w.Distinct) : (w.sheets.map (·.id)).Nodup :=
  List.pairwise_map.2 ((List.pairwise_map.1 h).imp And.left)

/-- Among names without letters beyond those of ASCII no two are the same but for case. -/
lemma Distinct.upper_ne (h : w.Distinct) (hplain : ∀ s ∈ w.sheets, ∀ c ∈ s.name.toList, c.toNat < 128) {s u : Sheet}
    (hs : s ∈ w.sheets) (hu : u ∈ w.sheets) (hne : u.id ≠ s.id) : upper u.name ≠ upper s.name := by
  have hupper : ∀ s ∈ w.sheets, upper s.name = asciiUpper s.name := fun s hs => by
    have hchars : s.name.toList.flatMap upperChar = s.name.toList.flatMap fun c => [c.toUpper] :=
      List.flatMap_congr fun c hc => if_pos (hplain s hs c hc)
    rw [upper, asciiUpper, hchars, List.map_eq_flatMap]
  have hdiffer : w.sheets.Pairwise fun a b => a.id ≠ b.id → sameLetters a.name b.name = false :=
    (List.pairwise_map.1 h).imp fun hab _ => hab.2
  have hsymm : Std.Symm fun a b : Sheet => a.id ≠ b.id → sameLetters a.name b.name = false :=
    ⟨fun a b hab hne => by rw [sameLetters, Bool.beq_comm]; exact hab hne.symm⟩
  have hsame := hdiffer.forall hu hs (fun heq => hne (heq ▸ rfl)) hne
  rw [hupper u hu, hupper s hs]
  exact ne_of_beq_false hsame

/-- The sheet that a name leads to: the last one that has it but for case. -/
def named? (w : Workbook) (name : String) : Option Sheet := w.sheets.reverse.find? fun s => upper s.name == upper name

lemma isSome_named? {s : Sheet} (hs : s ∈ w.sheets) : (w.named? s.name).isSome = true :=
  List.find?_isSome.2 ⟨s, List.mem_reverse.2 hs, beq_self_eq_true _⟩

lemma mem_of_named? {u : Sheet} (h : w.named? name = some u) : u ∈ w.sheets ∧ upper u.name = upper name := by
  unfold named? at h
  have hname := List.find?_some h
  exact ⟨List.mem_reverse.1 (List.mem_of_find?_eq_some h), beq_iff_eq.1 hname⟩

lemma named?_of_ne {s : Sheet} (hs : s ∈ w.sheets) (h : ∀ u ∈ w.sheets, u.id ≠ s.id → upper u.name ≠ upper s.name) :
    (w.named? s.name).map (·.id) = some s.id := by
  obtain ⟨u, hu⟩ := Option.isSome_iff_exists.1 (isSome_named? hs)
  obtain ⟨hmem, hname⟩ := mem_of_named? hu
  have hid : u.id = s.id := Decidable.not_not.1 fun hne => h u hmem hne hname
  rw [hu]
  exact congrArg some hid

end Workbook

namespace NameTable

variable {t : NameTable}

lemma sheetId?_insert (t : NameTable) (k n id : String) : (t.insert k n id).sheetId? book name =
    if k = book ∧ upper n = upper name then some id else t.sheetId? book name := by
  simp only [sheetId?, insert, insertKey, ExtTreeMap.getElem?_insert, Std.compare_eq_iff_eq]
  by_cases hk : k = book
  · subst hk
    simp only [if_true, Option.bind_some, ExtTreeMap.getElem?_insert, Std.compare_eq_iff_eq, true_and]
    split
    · rfl
    · cases t.sheets[k]? <;> simp
  · simp [hk]

/-- Enters the sheets of a workbook. -/
def insertSheets (w : Workbook) (t : NameTable) : NameTable := w.sheets.foldl (fun t s => t.insert w.id s.name s.id) t

lemma sheetId?_insertSheets_of_ne (h : w.id ≠ book) (t : NameTable) :
    (t.insertSheets w).sheetId? book name = t.sheetId? book name := by
  rw [insertSheets]
  induction w.sheets generalizing t with
  | nil => rfl
  | cons s sheets ih => rw [List.foldl_cons, ih, sheetId?_insert, if_neg fun hk => h hk.1]

lemma sheetId?_insertSheets (w : Workbook) (t : NameTable) (name : String) :
    (t.insertSheets w).sheetId? w.id name = ((w.named? name).map (·.id)).or (t.sheetId? w.id name) := by
  rw [insertSheets, Workbook.named?]
  induction w.sheets generalizing t with
  | nil => rfl
  | cons s sheets ih =>
    rw [List.foldl_cons, ih, List.reverse_cons, List.find?_append, sheetId?_insert, List.find?_singleton]
    cases sheets.reverse.find? fun s => upper s.name == upper name with
    | some u => rfl
    | none => by_cases hs : upper s.name = upper name <;> simp [hs]

end NameTable

namespace Books

theorem sheetId?_nameTable (hb : b.Proper) (hw : b.book? book = some w) (name : String) :
    b.nameTable.sheetId? book name = (w.named? name).map (·.id) := by
  obtain rfl := hb.id book w hw
  -- among workbooks of which one at most has the id
  have hfold : ∀ (l : List Workbook) (t : NameTable), (∀ v ∈ l, v.id = w.id → v = w) →
      t.sheetId? w.id name = none ∧ w ∈ l ∨ t.sheetId? w.id name = (w.named? name).map (·.id) →
      (l.foldl (fun t v => (t.insertBook v.name v.id).insertSheets v) t).sheetId? w.id name =
        (w.named? name).map (·.id) := by
    intro l
    induction l with
    | nil => exact fun t _ ht => by simpa using ht
    | cons v l ih =>
      intro t hl ht
      rw [List.forall_mem_cons] at hl
      have hbook : (t.insertBook v.name v.id).sheetId? w.id name = t.sheetId? w.id name := rfl
      refine ih _ hl.2 ?_
      by_cases hv : v.id = w.id
      · obtain rfl := hl.1 hv
        rw [NameTable.sheetId?_insertSheets, hbook]
        rcases ht with ⟨hnone, -⟩ | hsome
        · exact Or.inr (by rw [hnone, Option.or_none])
        · exact Or.inr (by rw [hsome, Option.or_self])
      · rw [NameTable.sheetId?_insertSheets_of_ne hv, hbook]
        exact ht.imp_left fun h => ⟨h.1, (List.mem_cons.1 h.2).resolve_left fun heq => hv (heq ▸ rfl)⟩
  refine hfold b.toList NameTable.empty (fun v hv hid => ?_) (Or.inl ⟨?_, Table.mem_values.2 ⟨w.id, hw⟩⟩)
  · obtain ⟨k, hk⟩ := Table.mem_values.1 hv
    have hkey : v.id = k := hb.id k v hk
    rw [hkey] at hid
    exact Option.some.inj (hk.symm.trans (hid ▸ hw))
  · simp [NameTable.sheetId?, NameTable.empty]

end Books

end Spreadsheet
