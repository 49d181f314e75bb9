import Spreadsheet.Proofs.Dependency.Mention
import Spreadsheet.Proofs.Engine.Config
import Spreadsheet.Proofs.Engine.Incremental
import Spreadsheet.Proofs.Engine.Readback
import Spreadsheet.Proofs.Engine.Reach
import Spreadsheet.Proofs.Evaluation.Relisted

/-! Results do not depend on the order in which the tables of a dataset are written, as long as no two changed definitions of a
workbook have names that agree up to the case of `a`-`z`. -/

namespace Spreadsheet

open Std Text Dependency Formula

attribute [ext] Dependency.Changes Config

namespace PerSheet

variable {ι κ α : Type}

/-- The same entries in another order. -/
abbrev Same (t t' : PerSheet α) : Prop := Reordered (Reordered (· = ·)) t t'

/-- The same entries, and in each of them the same ones, in another order. -/
abbrev SameItems (t t' : PerSheet (List (ι × α))) : Prop := Reordered (Reordered (Reordered (· = ·))) t t'

lemma SameItems.flat {t t' : PerSheet (List (ι × α))} (h : SameItems t t') {f : String → String → ι → κ} (book sheet : κ → String)
    (hbook : ∀ b s i, book (f b s i) = b) (hsheet : ∀ b s i, sheet (f b s i) = s) (hf : ∀ b s, (f b s).Injective) :
    Reordered (· = ·) (t.flatMap fun x => x.2.flatMap fun y => y.2.map fun z => (f x.1 y.1 z.1, z.2))
      (t'.flatMap fun x => x.2.flatMap fun y => y.2.map fun z => (f x.1 y.1 z.1, z.2)) := by
  refine h.flatMap book (fun x w hw => ?_) fun b sheets sheets' hsheets =>
    hsheets.flatMap sheet (fun y w hw => ?_) fun s items items' hitems => hitems.map_key (hf b s)
  · obtain ⟨y, -, hw⟩ := List.mem_flatMap.1 hw
    obtain ⟨z, -, rfl⟩ := List.mem_map.1 hw
    exact hbook _ _ _
  · obtain ⟨z, -, rfl⟩ := List.mem_map.1 hw
    exact hsheet _ _ _

lemma SameItems.places {t t' : PerSheet (List (Position × α))} (h : SameItems t t') :
    Reordered (· = ·) t.places t'.places := by
  refine h.flat (f := fun book sheet p => ⟨book, sheet, p.row, p.col⟩) Place.book Place.sheet (fun _ _ _ => rfl) (fun _ _ _ => rfl)
    fun book sheet p q hpq => ?_
  obtain ⟨-, -, hrow, hcol⟩ := Place.mk.inj hpq
  exact congrArg₂ Position.mk hrow hcol

lemma SameItems.keyed {t t' : PerSheet (List (String × α))} (h : SameItems t t') : Reordered (· = ·) t.keyed t'.keyed :=
  h.flat (f := ItemKey.mk) ItemKey.book ItemKey.sheet (fun _ _ _ => rfl) (fun _ _ _ => rfl)
    fun _ _ _ _ hij => (ItemKey.mk.inj hij).2.2

lemma perm_books {R : α → α → Prop} {t t' : PerSheet α} (h : Reordered (Reordered R) t t') : t.books.Perm t'.books := h.perm_keys

end PerSheet

/-! Formulas. -/

namespace Config.FormulaTable

variable {t : FormulaTable} {b b' : Books}

lemma ofBooks_relisted (h : b.Relisted b') : ofBooks b = ofBooks b' := by
  have hsources : ∀ w w' : Workbook, w.Relisted w' →
      (w.sheets.filterMap fun s => if s.formulas = [] then none else some ((w.id, s.id), Matrix.ofList s.formulas)) =
        w'.sheets.filterMap fun s => if s.formulas = [] then none else some ((w'.id, s.id), Matrix.ofList s.formulas) := by
    intro w w' hw
    rw [hw.sheets, hw.id]
  rw [ofBooks_eq, ofBooks_eq, sources, sources, List.flatMap_def, List.flatMap_def, h.map_toList hsources]

/-- Puts formulas over those of a sheet. -/
def extendSheet (t : FormulaTable) (x : (String × String) × List (Position × StoredFormula)) : FormulaTable :=
  insert t x.1.1 x.1.2 (x.2.foldl (fun m e => m.insert e.1.row e.1.col e.2) (sheet t x.1.1 x.1.2))

lemma extend_eq (t : FormulaTable) (formulas : PerSheet (List (Position × StoredFormula))) :
    extend t formulas = (formulas.flatMap fun x => x.2.map fun y => ((x.1, y.1), y.2)).foldl extendSheet t := by
  simp only [List.foldl_flatMap, List.foldl_map]
  rfl

lemma sheet_insert {book sheet book' sheet' : String} (h : (book, sheet) ≠ (book', sheet')) (m : Matrix StoredFormula) :
    FormulaTable.sheet (insert t book sheet m) book' sheet' = FormulaTable.sheet t book' sheet' := by
  have hne : ¬ (book = book' ∧ sheet = sheet') := fun heq => h (Prod.ext heq.1 heq.2)
  exact congrArg (Option.getD · Matrix.empty) ((sheet?_insert t book sheet m book' sheet').trans (if_neg hne))

lemma insert_insert {book sheet book' sheet' : String} (h : (book, sheet) ≠ (book', sheet')) (m m' : Matrix StoredFormula) :
    insert (insert t book sheet m) book' sheet' m' = insert (insert t book' sheet' m') book sheet m := by
  refine ExtTreeMap.ext_getElem? fun k => ?_
  simp only [insert, ExtTreeMap.getElem?_insert, Std.compare_eq_iff_eq]
  by_cases hb : book = book'
  · subst hb
    have hs : sheet ≠ sheet' := fun hs => h (Prod.ext rfl hs)
    simp only [if_true, Option.getD_some]
    split
    · exact congrArg some (Table.insert_comm _ (a := (sheet, m)) (b := (sheet', m')) hs)
    · rfl
  · grind

lemma extendSheet_comm {x y : (String × String) × List (Position × StoredFormula)} (h : x.1 ≠ y.1) :
    (t.extendSheet x).extendSheet y = (t.extendSheet y).extendSheet x := by
  simp only [extendSheet, sheet_insert h, sheet_insert h.symm]
  exact insert_insert h _ _

lemma extend_reordered {formulas formulas' : PerSheet (List (Position × StoredFormula))} (h : PerSheet.SameItems formulas formulas')
    (t : FormulaTable) : extend t formulas = extend t formulas' := by
  have hflat : Reordered (Reordered (· = ·)) (formulas.flatMap fun x => x.2.map fun y => ((x.1, y.1), y.2))
      (formulas'.flatMap fun x => x.2.map fun y => ((x.1, y.1), y.2)) := by
    refine h.flatMap Prod.fst (fun x y hy => ?_) fun book _ _ hsheets => hsheets.map_key (Prod.mk_right_injective book)
    obtain ⟨z, -, rfl⟩ := List.mem_map.1 hy
    rfl
  rw [extend_eq, extend_eq]
  refine hflat.foldl_eq (fun t k cells cells' hcells => ?_) (fun t x y hxy => extendSheet_comm hxy) t
  have hcells : ∀ m : Matrix StoredFormula, cells.foldl (fun m e => m.insert e.1.row e.1.col e.2) m =
      cells'.foldl (fun m e => m.insert e.1.row e.1.col e.2) m :=
    hcells.foldl_eq (fun _ _ _ _ hab => by rw [hab]) fun m x y hxy => m.insert_comm hxy _ _
  exact congrArg (insert t k.1 k.2) (hcells _)

end Config.FormulaTable

/-- The same dataset with its tables written in another order. -/
structure Dataset.Reordered (d d' : Dataset) : Prop where
  formulas : PerSheet.SameItems d.formulas d'.formulas
  others : PerSheet.SameItems d.others d'.others
  arrayRanges : PerSheet.SameItems d.arrayRanges d'.arrayRanges
  arrayValues : PerSheet.SameItems d.arrayValues d'.arrayValues
  force : d.force = d'.force
  dirtyRanges : d.dirtyRanges = d'.dirtyRanges
  dirtySheetNames : PerSheet.Same d.dirtySheetNames d'.dirtySheetNames
  dirtyNames : PerSheet.Same d.dirtyNames d'.dirtyNames
  dirtyFeatures : PerSheet.SameItems d.dirtyFeatures d'.dirtyFeatures
  dirtyOthers : PerSheet.SameItems d.dirtyOthers d'.dirtyOthers
  features : d.features = d'.features
  formats : PerSheet.SameItems d.formats d'.formats
  excluded : PerSheet.SameItems d.excluded d'.excluded
  books : d.books = d'.books
  names : d.names = d'.names

/-- No two changed definitions of a workbook have names that agree up to the case of `a`-`z`. -/
def Dataset.NamesApart (d : Dataset) : Prop := ∀ x ∈ d.dirtyNames, Config.NamesApart x.2

lemma Dependency.sorted_eq_of_perm {l l' : List String} (h : l.Perm l') : sorted l = sorted l' := by
  rw [sorted, sorted]
  refine congrArg ExtTreeSet.toList (ExtTreeSet.ext_mem fun k => ?_)
  rw [Table.mem_foldl_insert, Table.mem_foldl_insert, h.mem_iff]

namespace Config

variable {d d' : Dataset} {b b' : Books}

instance : LawfulEqCmp (compareLex (compareOn Prod.fst) (compareOn Prod.snd) : String × String → String × String → Ordering) where
  eq_of_compare {a b} h := by
    simp only [compareLex_eq_eq, compareOn, Std.compare_eq_iff_eq] at h
    exact Prod.ext h.1 h.2

lemma mergeSort_pairLE {l l' : List (String × String)} (h : l.Perm l') :
    l.mergeSort changesOf.pairLE = l'.mergeSort changesOf.pairLE :=
  mergeSort_eq_of_perm (compareLex (compareOn Prod.fst) (compareOn Prod.snd)) h

lemma changesOf_reordered (h : d.Reordered d') : changesOf d = changesOf d' := by
  have hnames : (d.dirtyNames.flatMap fun x => x.2.map fun y => (x.1, upper y.1)).Perm
      (d'.dirtyNames.flatMap fun x => x.2.map fun y => (x.1, upper y.1)) := by
    refine h.dirtyNames.perm_flatMap fun book _ _ hnames => ?_
    exact hnames.perm_map (g := fun y => (book, upper y.1)) fun _ _ _ _ => by dsimp only
  have hsheets : (d.dirtySheetNames.flatMap fun x => x.2.map fun y => (x.1, upper y.2)).Perm
      (d'.dirtySheetNames.flatMap fun x => x.2.map fun y => (x.1, upper y.2)) := by
    refine h.dirtySheetNames.perm_flatMap fun book _ _ hnames => ?_
    exact hnames.perm_map (g := fun y => (book, upper y.2)) fun _ _ _ hab => by rw [hab]
  have hflagged : ∀ {t t' : PerSheet (List (String × Bool))}, PerSheet.SameItems t t' → changesOf.flagged t = changesOf.flagged t' :=
    fun ht => ht.keyed.foldl_mark ∅
  exact Changes.ext h.dirtyRanges (mergeSort_pairLE hnames) (mergeSort_pairLE hsheets) (hflagged h.dirtyFeatures)
    (hflagged h.dirtyOthers) (h.excluded.places.foldl_mark ∅) h.force rfl

lemma dirtyBooksOf_reordered (h : d.Reordered d') (hb : b.Relisted b') (t : FormulaTable) :
    dirtyBooksOf d b t = dirtyBooksOf d' b' t := by
  have hids := hb.map_toList fun w w' hw => hw.id
  rw [dirtyBooksOf, dirtyBooksOf, h.force, h.dirtyRanges, hids]
  refine sorted_eq_of_perm ?_
  refine List.Perm.append ?_ (PerSheet.perm_books h.dirtyOthers)
  refine List.Perm.append ?_ (PerSheet.perm_books h.dirtyFeatures)
  refine List.Perm.append ?_ (PerSheet.perm_books h.dirtyNames)
  exact List.Perm.append (.refl _) (PerSheet.perm_books h.dirtySheetNames)

/-- The configuration with other workbooks. -/
def relist (c : Config) (b : Books) : Config := { c with books := b }

theorem load_reordered (h : d.Reordered d') (hapart : d.NamesApart) :
    (load d).books.Relisted (load d').books ∧ load d' = (load d).relist (load d').books := by
  have hb : (load d).books.Relisted (load d').books := by
    rw [show (load d').books = defineAll d.books d'.dirtyNames by rw [h.books]; rfl]
    exact relisted_defineAll h.dirtyNames hapart d.books
  refine ⟨hb, ?_⟩
  have htables : (FormulaTable.ofBooks (load d').books).extend d'.formulas =
      (FormulaTable.ofBooks (load d).books).extend d.formulas := by
    rw [FormulaTable.ofBooks_relisted hb, FormulaTable.extend_reordered h.formulas]
  have hdirty := dirtyBooksOf_reordered h hb ((FormulaTable.ofBooks (load d).books).extend d.formulas)
  refine Config.ext ?_ (h.others.keyed.foldl_insert ∅).symm (h.arrayRanges.places.foldl_insert ∅).symm
    (h.arrayValues.places.foldl_insert ∅).symm (h.formats.places.foldl_insert ∅).symm h.features.symm rfl ?_
    (changesOf_reordered h).symm ?_
  · exact congrArg (fun t : FormulaTable => t.expanded.foldl (fun m x => m.insert x.1 x.2) (∅ : PlaceMap StoredFormula)) htables
  · have hnames : (d'.names.getD {}).extend (load d').books.nameTable = (d.names.getD {}).extend (load d).books.nameTable := by
      rw [h.names, Books.nameTable_congr hb.outline_eq]
    exact hnames
  · exact (congrArg (dirtyBooksOf d' (load d').books) htables).trans hdirty.symm

variable {c : Config} (h : c.books.Relisted b)

include h

lemma index_relist (r : Registry) : (c.relist b).index r = c.index r := by
  simp only [index, Index.build, relist, output, ← Entry.ofText_relisted h]

end Config

lemma Books.Relisted.applyTo {b b' : Books} (h : b.Relisted b') (r : Report) : (r.applyTo b).Relisted (r.applyTo b') := by
  rw [Report.applyTo, Report.applyTo, ExtTreeMap.foldl_eq_foldl_toList, ExtTreeMap.foldl_eq_foldl_toList]
  generalize r.values.toList = l
  induction l generalizing b b' with
  | nil => exact h
  | cons x l ih => exact ih (h.modifySheet x.1.book x.1.sheet (·.setCalculated x.1.row x.1.col x.2))

/-! Calculations. -/

namespace Calculation

variable {c : Calculation} {b : Books}

/-- The calculation over other workbooks. -/
def relist (c : Calculation) (b : Books) : Calculation := { c with config := c.config.relist b }

lemma snapshot_relist (c : Calculation) (b : Books) : (c.relist b).snapshot = c.snapshot.relist b := rfl

variable (h : c.config.books.Relisted b)

include h

lemma evaluateCell_relist (i : Interpreter) (p : Place) : (c.relist b).evaluateCell i p = c.evaluateCell i p := by
  have hsnapshot : c.snapshot.books.Relisted b := h
  simp only [evaluateCell, snapshot_relist, Interpreter.evaluateCell_relist hsnapshot, Interpreter.recordResult_relist hsnapshot]
  rfl

lemma evaluateCells_relist (i : Interpreter) (l : List Place) : (c.relist b).evaluateCells i l = c.evaluateCells i l := by
  induction l generalizing i with
  | nil => rfl
  | cons p l ih =>
    rw [evaluateCells, evaluateCells, evaluateCell_relist h, ih]
    rfl

lemma evaluateOther_relist (i : Interpreter) (e : Entry) : (c.relist b).evaluateOther i e = c.evaluateOther i e := by
  have hsnapshot : c.snapshot.books.Relisted b := h
  have hcursor : ∀ p, b.cursor p = c.config.books.cursor p := (Snapshot.beside_relist hsnapshot).cursor_eq
  simp only [evaluateOther, snapshot_relist, Interpreter.evaluate_relist hsnapshot]
  rw [show (c.relist b).config.books = b from rfl, hcursor]
  rfl

lemma evaluateOthers_relist (i : Interpreter) : (c.relist b).evaluateOthers i = c.evaluateOthers i := by
  have hstep : (c.relist b).otherStep = c.otherStep := by
    funext y k
    simp only [otherStep, evaluateOther_relist h]
    rfl
  rw [evaluateOthers_eq, evaluateOthers_eq, hstep]
  rfl

lemma run_relist (host : Host) (cursor : Cursor) : (c.relist b).run host cursor = c.run host cursor := by
  have hfirst : (c.relist b).firstRound host cursor = c.firstRound host cursor := evaluateCells_relist h _ _
  have hsecond : (c.relist b).secondRound host cursor = c.secondRound host cursor := by
    rw [secondRound, secondRound, hfirst]
    exact evaluateCells_relist h _ _
  rw [run_eq, run_eq, hfirst, hsecond, evaluateOthers_relist h]
  rfl

end Calculation

/-! Engines. -/

namespace Engine

variable {e e' : Engine} {d d' : Dataset} {b : Books}

/-- The engine with other workbooks. -/
def relist (e : Engine) (b : Books) : Engine := { e with config := e.config.relist b }

/-- The engines differ at most in the order in which their workbooks list names. -/
def Relisted (e e' : Engine) : Prop := ∃ b, e.config.books.Relisted b ∧ e' = e.relist b

lemma reindex_relist (h : e.config.books.Relisted b) : (e.relist b).reindex = e.reindex.relist b :=
  congrArg (fun index => { e.relist b with index }) (Config.index_relist h e.registry)

theorem relisted_load (h : d.Reordered d') (hapart : d.NamesApart) (e : Engine) : (e.load d).Relisted (e.load d') := by
  obtain ⟨hbooks, hload⟩ := Config.load_reordered h hapart
  refine ⟨(Config.load d').books, hbooks, ?_⟩
  rw [load, hload]
  exact reindex_relist (e := { e with config := Config.load d }) hbooks

lemma Relisted.setCell (h : e.Relisted e') (p : Place) (cell : Cell) :
    (∃ x x', e.setCell p cell = .ok x ∧ e'.setCell p cell = .ok x' ∧ x.Relisted x') ∨
      ∃ refusal, e.setCell p cell = .error refusal ∧ e'.setCell p cell = .error refusal := by
  obtain ⟨b, hb, rfl⟩ := h
  unfold Engine.setCell
  rw [show (e.relist b).config.books = b from rfl, ← hb.sheet?_eq]
  by_cases hs : (e.config.books.sheet? p.book p.sheet).isNone = true
  · rw [if_pos hs, if_pos hs]
    exact .inr ⟨_, rfl, rfl⟩
  · rw [if_neg hs, if_neg hs]
    have hbooks := hb.modifySheet p.book p.sheet (·.setCell p.row p.col cell)
    refine .inl ⟨_, _, rfl, rfl, _, hbooks, ?_⟩
    exact reindex_relist (e := Engine.markDirty { e with config := { e.config with books := _, formulas := _ } } p.region) hbooks

lemma commit_relist (h : e.config.books.Relisted b) (r : Report) : (e.relist b).commit r = (e.commit r).relist (r.applyTo b) := by
  rw [commit_eq, commit_eq]
  split
  · rfl
  · exact reindex_relist (e := { e with config := e.config.commit r }) (h.applyTo r)

theorem Relisted.calculate (h : e.Relisted e') (waits : Bool) :
    (e.calculate waits).1 = (e'.calculate waits).1 ∧ (e.calculate waits).2.Relisted (e'.calculate waits).2 := by
  obtain ⟨b, hb, rfl⟩ := h
  have hsame : ((e.relist b).calculationWith waits).run (e.relist b).host.issueGeneration (e.relist b).cursor =
      (e.calculationWith waits).run e.host.issueGeneration e.cursor :=
    Calculation.run_relist (c := e.calculationWith waits) hb e.host.issueGeneration e.cursor
  rcases hrun : (e.calculationWith waits).run e.host.issueGeneration e.cursor with ⟨r | g, host⟩
  · rw [hrun] at hsame
    rw [calculate_of_run hrun, calculate_of_run hsame]
    have hbooks : ({ e with host }.commit r).config.books.Relisted (r.applyTo b) := by
      rw [config_commit]
      exact hb.applyTo r
    exact ⟨rfl, _, hbooks, commit_relist (e := { e with host }) hb r⟩
  · rw [hrun] at hsame
    rw [calculate_of_superseded hrun, calculate_of_superseded hsame]
    exact ⟨rfl, b, hb, rfl⟩

/-- Formulas that are not in the workbooks evaluate the same in such engines. -/
theorem Relisted.evaluate (h : e.Relisted e') (text : String) (p : Place) (waits : Bool) :
    (e.evaluate text p waits).1 = (e'.evaluate text p waits).1 ∧
      (e.evaluate text p waits).2.Relisted (e'.evaluate text p waits).2 := by
  obtain ⟨b, hb, rfl⟩ := h
  let snapshot : Snapshot :=
    { registry := e.registry, books := e.config.books, names := e.config.names, index := some e.index }
  have hsnapshot : snapshot.books.Relisted b := hb
  have hcursor : b.cursor p = e.config.books.cursor p := (Snapshot.beside_relist hsnapshot).cursor_eq p
  have hsame : (e.relist b).evaluate text p waits = ((e.evaluate text p waits).1, (e.evaluate text p waits).2.relist b) := by
    have hevaluate := fun i n => Interpreter.evaluate_relist hsnapshot i n waits
    unfold Engine.evaluate
    dsimp only [relist, Config.relist]
    rw [hcursor]
    dsimp only [snapshot, Snapshot.relist] at hevaluate
    simp only [hevaluate]
    rfl
  rw [hsame]
  exact ⟨rfl, b, hb, rfl⟩

lemma Relisted.step (h : e.Relisted e') (s : Step) : (e.step s).Relisted (e'.step s) := by
  cases s with
  | setCell p cell =>
    rcases h.setCell p cell with ⟨x, x', hx, hx', hrelisted⟩ | ⟨refusal, hx, hx'⟩
    · simp only [Engine.step, hx, hx']
      exact hrelisted
    · simp only [Engine.step, hx, hx']
      exact h
  | calculate => exact (h.calculate false).2

lemma Relisted.run (h : e.Relisted e') (steps : List Step) : (steps.foldl Engine.step e).Relisted (steps.foldl Engine.step e') := by
  induction steps generalizing e e' with
  | nil => exact h
  | cons s steps ih => exact ih (h.step s)

/-- Whatever edits and calculations come after a dataset was loaded, a calculation comes to the same, in whichever order the
tables of the dataset were written. -/
theorem calculate_reordered (h : d.Reordered d') (hapart : d.NamesApart) (e : Engine) (steps : List Step) (waits : Bool) :
    ((steps.foldl Engine.step (e.load d)).calculate waits).1 = ((steps.foldl Engine.step (e.load d')).calculate waits).1 :=
  (((relisted_load h hapart e).run steps).calculate waits).1

end Engine

end Spreadsheet
