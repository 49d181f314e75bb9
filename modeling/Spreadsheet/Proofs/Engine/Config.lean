import Spreadsheet.Engine.Config
import Spreadsheet.Proofs.Books
import Spreadsheet.Proofs.Evaluation.Meaning

/-! The configuration made from workbooks alone: its formulas are those stored in the cells, and its names
are theirs. -/

namespace Spreadsheet

open Std Dependency Formula

namespace NameTable

lemma getElem?_foldl_extend {l : List (String × ExtTreeMap String String)} (hl : (l.map (·.1)).Nodup)
    {t : ExtTreeMap String (ExtTreeMap String String)} (ht : ∀ x ∈ l, t[x.1]? = none) (k : String) :
    (l.foldl (fun acc x => acc.insert x.1 (x.2.foldl (fun m key id => m.insert key id) (acc[x.1]?.getD ∅))) t)[k]? =
      ((l.find? (·.1 == k)).map (·.2)).or t[k]? := by
  induction l generalizing t with
  | nil => simp
  | cons x l ih =>
    obtain ⟨hx, hl⟩ := List.nodup_cons.1 hl
    have hnames : x.2.foldl (fun m key id => m.insert key id) (t[x.1]?.getD ∅) = x.2 := by
      rw [ht x List.mem_cons_self]
      exact Table.foldl_insert_self x.2
    rw [List.foldl_cons, hnames, ih hl]
    · rw [List.find?_cons, ExtTreeMap.getElem?_insert]
      by_cases hk : x.1 = k
      · subst hk
        have hnone : l.find? (·.1 == x.1) = none := by
          rw [List.find?_eq_none]
          intro y hy hxy
          exact hx (List.mem_map.2 ⟨y, hy, by simpa using hxy⟩)
        simp [hnone]
      · have hne : (x.1 == k) = false := by simpa using hk
        simp [hne, hk]
    · intro y hy
      have hne : x.1 ≠ y.1 := fun h => hx (List.mem_map.2 ⟨y, hy, h.symm⟩)
      simp [ExtTreeMap.getElem?_insert, hne, ht y (List.mem_cons_of_mem _ hy)]

lemma extend_empty (t : NameTable) : ({} : NameTable).extend t = t := by
  have hsheets : t.sheets.foldl (fun acc book names =>
      acc.insert book (names.foldl (fun m key id => m.insert key id) (acc[book]?.getD ∅))) ∅ = t.sheets := by
    refine ExtTreeMap.ext_getElem? fun k => ?_
    rw [ExtTreeMap.foldl_eq_foldl_toList, getElem?_foldl_extend, Table.find?_toList]
    · simp
    · rw [ExtTreeMap.map_fst_toList_eq_keys]
      exact ExtTreeMap.nodup_keys
    · simp
  simp only [extend, hsheets, Table.foldl_insert_self]

end NameTable

namespace Config

namespace FormulaTable

def sheet? (t : FormulaTable) (book sheet : String) : Option (Matrix StoredFormula) := t[book]?.bind (·[sheet]?)

lemma sheet?_insert (t : FormulaTable) (book sheet : String) (m : Matrix StoredFormula) (k i : String) :
    sheet? (insert t book sheet m) k i = if book = k ∧ sheet = i then some m else sheet? t k i := by
  simp only [sheet?, insert, ExtTreeMap.getElem?_insert, Std.compare_eq_iff_eq]
  by_cases hk : book = k
  · subst hk
    simp only [if_true, Option.bind_some, ExtTreeMap.getElem?_insert, Std.compare_eq_iff_eq, true_and]
    split
    · rfl
    · cases t[book]? <;> simp
  · simp [hk]

/-- The sheets that have formulas. -/
def sources (b : Books) : List ((String × String) × Matrix StoredFormula) :=
  b.toList.flatMap fun book => book.sheets.filterMap fun s =>
    if s.formulas = [] then none else some ((book.id, s.id), Matrix.ofList s.formulas)

lemma ofBooks_eq (b : Books) : ofBooks b = (sources b).foldl (fun t x => insert t x.1.1 x.1.2 x.2) ∅ := by
  rw [ofBooks, sources, List.foldl_flatMap]
  congr 1
  funext t book
  rw [List.foldl_filterMap]
  congr 1
  funext t s
  cases s.formulas <;> simp

lemma mem_sources {b : Books} (hb : b.Proper) {x : (String × String) × Matrix StoredFormula} :
    x ∈ sources b ↔ ∃ s, b.sheet? x.1.1 x.1.2 = some s ∧ s.formulas ≠ [] ∧ x.2 = Matrix.ofList s.formulas := by
  simp only [sources, List.mem_flatMap, List.mem_filterMap, Books.toList, Table.mem_values]
  constructor
  · rintro ⟨w, ⟨k, hw⟩, s, hs, hx⟩
    obtain ⟨hne, hx⟩ := Option.ite_none_left_eq_some.1 hx
    obtain rfl := Option.some.inj hx
    refine ⟨s, ?_, hne, rfl⟩
    rw [Books.sheet?, hb.id k w hw, show b.book? k = some w from hw]
    exact Workbook.sheet?_of_mem (hb.sheets k w hw) hs
  · rintro ⟨s, hs, hne, hx⟩
    obtain ⟨w, hw, hs⟩ := Option.bind_eq_some_iff.1 hs
    have hid : s.id = x.1.2 := by simpa using List.find?_some hs
    refine ⟨w, ⟨x.1.1, hw⟩, s, List.mem_of_find?_eq_some hs, ?_⟩
    rw [if_neg hne, hb.id _ w hw, hid, ← hx]

lemma sheet?_ofBooks {b : Books} (hb : b.Proper) (k i : String) (m : Matrix StoredFormula) :
    sheet? (ofBooks b) k i = some m ↔
      ∃ s, b.sheet? k i = some s ∧ s.formulas ≠ [] ∧ m = Matrix.ofList s.formulas := by
  have hsame : ∀ x ∈ sources b, ∀ y ∈ sources b, x.1 = y.1 → x.2 = y.2 := by
    intro x hx y hy hxy
    obtain ⟨s, hs, -, hx⟩ := (mem_sources hb).1 hx
    obtain ⟨t, ht, -, hy⟩ := (mem_sources hb).1 hy
    rw [hxy, ht] at hs
    rw [hx, hy, Option.some.inj hs]
  rw [ofBooks_eq]
  refine (Table.look_foldl (fun t k => sheet? t k.1 k.2) Prod.fst Prod.snd ?_ ?_ hsame ∅ (k, i) m).trans ?_
  · rintro t x _ rfl
    simp [sheet?_insert]
  · intro t x y hxy
    rw [sheet?_insert, if_neg]
    exact fun h => hxy (Prod.ext h.1 h.2)
  · have hempty : sheet? (∅ : FormulaTable) k i ≠ some m := by simp [sheet?]
    simp only [hempty, and_false, or_false]
    constructor
    · rintro ⟨⟨⟨_, _⟩, _⟩, hx, hk, rfl⟩
      cases hk
      exact (mem_sources hb).1 hx
    · rintro ⟨s, hs, hne, rfl⟩
      exact ⟨((k, i), _), (mem_sources hb).2 ⟨s, hs, hne, rfl⟩, rfl, rfl⟩

lemma mem_expanded {t : FormulaTable} {p : Place} {f : StoredFormula} : (p, f) ∈ expanded t ↔
    ∃ m, sheet? t p.book p.sheet = some m ∧ (p.position, f) ∈ expandShared m.toList ∧ f.hasText = true := by
  simp only [expanded, List.mem_flatMap, List.mem_map, List.mem_filter, Prod.exists, Prod.mk.injEq,
    ExtTreeMap.mem_toList_iff_getElem?_eq_some]
  constructor
  · rintro ⟨book, sheets, hb, id, m, hm, ⟨row, col⟩, g, ⟨hg, ht⟩, rfl, rfl⟩
    exact ⟨m, by rw [sheet?, hb]; exact hm, hg, ht⟩
  · rintro ⟨m, hm, hf, ht⟩
    obtain ⟨sheets, hb, hm⟩ := Option.bind_eq_some_iff.1 hm
    exact ⟨p.book, sheets, hb, p.sheet, m, hm, p.position, f, ⟨hf, ht⟩, rfl, rfl⟩

lemma ownText_of_hasText {cells : List (Position × StoredFormula)} {p : Position} {f : StoredFormula}
    (h : f.hasText = true) : ownText cells p f = f.text := by
  rw [ownText, if_pos h]

lemma mem_expanded_ofBooks {b : Books} (hb : b.Proper) (hown : ∀ p f, b.formula? p = some f → f.hasText = true)
    {p : Place} {f : StoredFormula} : (p, f) ∈ expanded (ofBooks b) ↔ b.formula? p = some f := by
  rw [mem_expanded, Books.formula?_eq_some]
  simp only [sheet?_ofBooks hb, expandShared, List.mem_map, Prod.exists, Prod.mk.injEq]
  constructor
  · rintro ⟨_, ⟨s, hs, -, rfl⟩, ⟨q, g, hg, rfl, hf⟩, -⟩
    have hg := Sheet.mem_toList_formulas.1 hg
    have htext := hown p g (Books.formula?_eq_some.2 ⟨s, hs, hg⟩)
    rw [ownText_of_hasText htext] at hf
    exact ⟨s, hs, hf ▸ hg⟩
  · rintro ⟨s, hs, hf⟩
    have htext := hown p f (Books.formula?_eq_some.2 ⟨s, hs, hf⟩)
    refine ⟨_, ⟨s, hs, List.ne_nil_of_mem hf, rfl⟩, ⟨p.position, f, Sheet.mem_toList_formulas.2 hf, rfl, ?_⟩, htext⟩
    rw [ownText_of_hasText htext]

end FormulaTable

end Config

/-- A dataset whose formulas and names are those of its workbooks, and that excludes no cells. -/
structure Dataset.Own (d : Dataset) : Prop where
  formulas : d.formulas = []
  others : d.others = []
  dirtyNames : d.dirtyNames = []
  excluded : d.excluded = []
  names : d.names = none

/-- A dataset that brings workbooks and says nothing of its own about their cells and names. -/
structure Dataset.Bare (d : Dataset) : Prop extends d.Own where
  arrayRanges : d.arrayRanges = []

namespace Config

lemma arrayRanges_load {d : Dataset} (h : d.Bare) : (load d).arrayRanges = ∅ := by
  simp [load, h.arrayRanges, PerSheet.places]

section Load

variable {d : Dataset} (h : d.Own)

include h

lemma books_load : (load d).books = d.books := by
  simp [load, h.dirtyNames, defineAll]

lemma names_load : (load d).names = d.books.nameTable := by
  simp [load, h.dirtyNames, h.names, defineAll, NameTable.extend_empty]

lemma others_load : (load d).others = ∅ := by
  simp [load, h.others, PerSheet.keyed]

lemma excluded_load : (load d).changes.excluded = ∅ := by
  simp [load, changesOf, h.excluded, PerSheet.places]

lemma formulas_load (hb : d.books.Proper) (hown : ∀ p f, d.books.formula? p = some f → f.hasText = true)
    (p : Place) : (load d).formulas[p]? = d.books.formula? p := by
  have hmem : ∀ {p f}, (p, f) ∈ (FormulaTable.ofBooks d.books).expanded ↔ d.books.formula? p = some f :=
    FormulaTable.mem_expanded_ofBooks hb hown
  have hsame : ∀ x ∈ (FormulaTable.ofBooks d.books).expanded, ∀ y ∈ (FormulaTable.ofBooks d.books).expanded,
      x.1 = y.1 → x.2 = y.2 := by
    intro x hx y hy hxy
    have hx := hmem.1 hx
    rw [hxy, hmem.1 hy] at hx
    exact (Option.some.inj hx).symm
  refine Option.ext fun f => ?_
  simp only [load, h.dirtyNames, h.formulas, defineAll, FormulaTable.extend, List.foldl_nil]
  refine (Table.mem_of_foldl_insert (fun x : Place × StoredFormula => x.1) hsame p f).trans ?_
  rw [← hmem]
  constructor
  · rintro ⟨⟨_, _⟩, hx, rfl, rfl⟩
    exact hx
  · intro hx
    exact ⟨_, hx, rfl, rfl⟩

end Load

variable {c : Config} {r : Registry}

lemma cell?_index (p : Place) : (c.index r).cell? p =
    c.formulas[p]?.map fun f => Entry.ofText ⟨r, c.books, c.names⟩ p.book p.sheet f.text (c.output p) := by
  have hsame : ∀ x ∈ c.formulas.toList, ∀ y ∈ c.formulas.toList, x.1 = y.1 →
      Entry.ofText ⟨r, c.books, c.names⟩ x.1.book x.1.sheet x.2.text (c.output x.1) =
        Entry.ofText ⟨r, c.books, c.names⟩ y.1.book y.1.sheet y.2.text (c.output y.1) := by
    intro x hx y hy hxy
    have hx := ExtTreeMap.mem_toList_iff_getElem?_eq_some.1 hx
    rw [hxy, ExtTreeMap.mem_toList_iff_getElem?_eq_some.1 hy] at hx
    rw [hxy, Option.some.inj hx]
  refine Option.ext fun e => ?_
  simp only [index, Index.build, Index.cell?, List.foldl_map, Option.map_eq_some_iff]
  refine (Table.mem_of_foldl_insert (fun x : Place × StoredFormula => x.1) hsame p e).trans ?_
  constructor
  · rintro ⟨⟨q, f⟩, hx, rfl, rfl⟩
    exact ⟨f, ExtTreeMap.mem_toList_iff_getElem?_eq_some.1 hx, rfl⟩
  · rintro ⟨f, hf, rfl⟩
    exact ⟨(p, f), ExtTreeMap.mem_toList_iff_getElem?_eq_some.2 hf, rfl, rfl⟩

lemma other?_index (ho : c.others = ∅) (k : ItemKey) : (c.index r).other? k = none := by
  simp only [index, Index.build, Index.other?, ho, ExtTreeMap.toList_eq_nil_iff.2 rfl, List.map_nil, List.foldl_nil]
  exact ExtTreeMap.getElem?_empty

end Config

/-! Entries of plain formulas do not depend on the workbooks. -/

namespace Dependency.Entry

open Formula

lemma namesOf_plain {r : Registry} {n : Node} (h : n.Plain r) : namesOf n = [] := by
  rw [namesOf, List.filterMap_eq_nil_iff]
  intro m hm
  have hplain := h m hm
  cases m with
  | name => exact hplain.elim
  | _ => rfl

/-- The entry of a formula that uses no names. -/
def ofPlain (r : Registry) (names : NameTable) (p : Place) (text : String) (output : Region) : Entry :=
  let node := Node.parse { names, book := some p.book } text
  { text, node, output
    references := referencesOf p.book p.sheet node
    names := sorted []
    sheetNames := sorted (sheetNamesOf text)
    volatile := callsVolatile r node }

section

variable (r : Registry) (names : NameTable) (p : Place) (text : String) (output : Region)

lemma text_ofPlain : (ofPlain r names p text output).text = text := by
  simp only [ofPlain]

lemma node_ofPlain : (ofPlain r names p text output).node = Node.parse { names, book := some p.book } text := by
  simp only [ofPlain]

lemma references_ofPlain :
    (ofPlain r names p text output).references = referencesOf p.book p.sheet (ofPlain r names p text output).node := by
  simp only [ofPlain]

lemma output_ofPlain : (ofPlain r names p text output).output = output := by
  simp only [ofPlain]

end

lemma ofText_plain {s : Surroundings} {p : Place} {text : String} {output : Region}
    (h : (Node.parse { names := s.names, book := some p.book } text).Plain s.registry) :
    ofText s p.book p.sheet text output = ofPlain s.registry s.names p text output := by
  have hnames := namesOf_plain h
  cases hb : s.books.book? p.book <;> simp [ofText, ofPlain, hnames, hb, reached]

end Dependency.Entry

end Spreadsheet
