import Mathlib.Logic.Relation
import Spreadsheet.Proofs.Engine.Exposure
import Spreadsheet.Proofs.Evaluation.Coverage

/-! A value that is put into a cell is what formulas read there, as long as the cell is left alone: provided that all
arrays recorded over the cell can be taken back by the next calculation. An array whose anchor is not calculated any
more stays where it is, before whatever is stored. -/

namespace Spreadsheet

open Std Dependency Formula Relation Eval

lemma Region.overlaps_of_isSingle {r : Region} (h : r.range.isSingle = true) (s : Region) :
    r.overlaps s = s.contains ⟨r.book, r.sheet, r.range.start.row, r.range.start.col⟩ := by
  simp only [Range.isSingle, Address.samePosition, Bool.and_eq_true, beq_iff_eq] at h
  rw [overlaps_comm]
  simp only [overlaps, sameSheet, contains, Range.overlaps, Range.contains, ← h.1, ← h.2]

namespace Dependency.Entry

variable {s : Surroundings} {p x : Place} {text : String} {output : Region}

lemma output_ofText {book sheet : String} : (ofText s book sheet text output).output = output := by
  simp only [ofText]

/-- A formula that is nothing but a reference to a cell mentions this cell only. -/
lemma mirror_ofText (h : (s.tree p.book text).IsCell p x) : (ofText s p.book p.sheet text output).Mirror p x := by
  have htree : ∃ r : Region, r.range.isSingle = true ∧ x = ⟨r.book, r.sheet, r.range.start.row, r.range.start.col⟩ ∧
      (ofText s p.book p.sheet text output).references = [r] := by
    rw [references_ofText, Surroundings.trees]
    cases hn : s.tree p.book text with
    | reference span book sheet range =>
      rw [hn] at h
      refine ⟨⟨book.getD p.book, sheet.getD p.sheet, range⟩, h.1, h.2, ?_⟩
      cases s.books.book? p.book <;> simp [namesOf, referencesOf, Node.nodes, reached]
    | _ =>
      rw [hn] at h
      exact h.elim
  obtain ⟨r, hsingle, rfl, hrefs⟩ := htree
  have hself : r.contains ⟨r.book, r.sheet, r.range.start.row, r.range.start.col⟩ = true := by
    simp only [Range.isSingle, Address.samePosition, Bool.and_eq_true, beq_iff_eq] at hsingle
    simp [Region.contains, Range.contains, hsingle.1, hsingle.2]
  refine ⟨node_ofText ▸ h, ⟨r, hrefs ▸ List.mem_singleton_self r, hself⟩, fun t ht u hu => ?_⟩
  rw [hrefs, List.mem_singleton] at ht
  subst ht
  rw [← Region.overlaps_of_isSingle hsingle]
  exact hu

end Dependency.Entry

namespace Engine

variable {e e' : Engine} {a p x : Place} {v : Scalar} {cell : Cell} {waits : Bool} {r : Report} {f : Entry} {text : String}

/-- The index has the formulas, and knows where their arrays lie. -/
structure Indexed (e : Engine) : Prop where
  entry : ∀ p, (e.index.cell? p).isSome = e.config.formulas[p]?.isSome
  output : ∀ p f, e.index.cell? p = some f → f.output = e.config.output p

lemma indexed_reindex (e : Engine) : e.reindex.Indexed where
  entry p := by rw [reindex, Config.cell?_index, Option.isSome_map]
  output p f hf := by
    rw [reindex, Config.cell?_index, Option.map_eq_some_iff] at hf
    obtain ⟨g, -, rfl⟩ := hf
    exact Entry.output_ofText

lemma Indexed.commit (h : e.Indexed) (r : Report) : (e.commit r).Indexed := by
  rw [commit_eq]
  split
  · rename_i hr
    refine ⟨h.entry, fun p f hf => ?_⟩
    rw [h.output p f hf]
    exact (output_commit (List.isEmpty_iff.1 hr) p).symm
  · exact indexed_reindex _

/-- A cell has a value and no formula. -/
structure Stores (e : Engine) (x : Place) (v : Scalar) : Prop where
  indexed : e.Indexed
  value : e.config.books.value? x = some v
  formula : e.config.formulas[x]? = none

/-- A cell has a value and no formula, and no array lies over it. -/
structure Shows (e : Engine) (x : Place) (v : Scalar) : Prop extends e.Stores x v where
  uncovered : ∀ a, ¬ e.config.Over a x

lemma setCell_ok (h : e.setCell p cell = .ok e') : (e.config.books.sheet? p.book p.sheet).isSome ∧
    e'.config.books = e.config.books.setCell p cell ∧ e'.config.arrayRanges = e.config.arrayRanges ∧
    (∀ q, e'.config.formulas[q]? = if q = p then cell.formula.filter (·.hasText) else e.config.formulas[q]?) ∧
    e'.config.changes = { e.config.changes with ranges := e.config.changes.ranges ++ [p.region] } ∧ e'.Indexed := by
  rw [setCell] at h
  split at h
  · cases h
  · rename_i hs
    obtain rfl := Except.ok.inj h
    refine ⟨by simpa [Option.isSome_iff_ne_none] using hs, rfl, rfl, fun q => ?_, rfl, indexed_reindex _⟩
    cases cell.formula.filter (·.hasText) with
    | none =>
      refine ExtTreeMap.getElem?_erase.trans ?_
      simp only [Std.compare_eq_iff_eq]
      exact if_congr eq_comm rfl rfl
    | some f =>
      refine ExtTreeMap.getElem?_insert.trans ?_
      simp only [Std.compare_eq_iff_eq]
      exact if_congr eq_comm rfl rfl

lemma setCell_keeps (h : e.setCell p cell = .ok e') : e'.config.arrayValues = e.config.arrayValues ∧
    e'.config.features = e.config.features ∧ e'.options = e.options := by
  rw [setCell] at h
  split at h
  · cases h
  · obtain rfl := Except.ok.inj h
    exact ⟨rfl, rfl, rfl⟩

lemma stores_setCell (h : e.setCell x (.ofValue v) = .ok e') : e'.Stores x v := by
  obtain ⟨hs, hbooks, -, hformulas, -, hindexed⟩ := setCell_ok h
  refine ⟨hindexed, ?_, by rw [hformulas, if_pos rfl]; rfl⟩
  rw [← Books.isSome_value?] at hs
  obtain ⟨w, hw⟩ := Option.isSome_iff_exists.1 hs
  rw [hbooks, Books.value?_setCell, if_pos rfl, hw]
  rfl

/-- The calculation that an engine runs, with or without waiting. -/
def calculationWith (e : Engine) (waits : Bool) : Calculation := { e.calculation with waits }

lemma calculate_of_superseded {g : Nat} {host : Host}
    (h : (e.calculationWith waits).run e.host.issueGeneration e.cursor = (.superseded g, host)) :
    e.calculate waits = (.superseded g, { e with host }) := by
  unfold calculationWith calculation pending at h
  unfold calculate
  simp only [h]

lemma calculate_cases (e : Engine) (waits : Bool) :
    (∃ r host, (e.calculationWith waits).run e.host.issueGeneration e.cursor = (.completed r, host) ∧
      e.calculate waits = (.completed r, { e with host }.commit r)) ∨
    ∃ g host, (e.calculationWith waits).run e.host.issueGeneration e.cursor = (.superseded g, host) ∧
      e.calculate waits = (.superseded g, { e with host }) := by
  rcases hrun : (e.calculationWith waits).run e.host.issueGeneration e.cursor with ⟨r | g, host⟩
  · exact Or.inl ⟨r, host, rfl, calculate_of_run hrun⟩
  · exact Or.inr ⟨g, host, rfl, calculate_of_superseded hrun⟩

lemma exposing (h : e.Stores x v) (hv : v ≠ .empty)
    (hover : ∀ a, e.config.Over a x → a ∈ (e.calculationWith waits).plan.cells) :
    (e.calculationWith waits).Exposing e.pending x v where
  plan := rfl
  value := h.value
  full := hv
  entry := by
    have hnone : (e.index.cell? x).isSome = false := by rw [h.indexed.entry, h.formula, Option.isSome_none]
    exact Option.isNone_iff_eq_none.1 (Option.isSome_eq_false_iff.1 hnone)
  planned := hover
  output := h.indexed.output
  excluded := rfl

section Completed

variable {host : Host}

lemma shows_commit (h : e.Stores x v) (hv : v ≠ .empty)
    (hover : ∀ a, e.config.Over a x → a ∈ (e.calculationWith waits).plan.cells)
    (hrun : ((e.calculationWith waits).run e.host.issueGeneration e.cursor).1 = .completed r) :
    ({ e with host }.commit r).Shows x v := by
  have hexposing := exposing h hv hover
  have hvalues := hexposing.values_eq_none hrun
  obtain ⟨hcurrent, -, rfl⟩ := Calculation.report_of_completed hrun
  have hindexed : ({ e with host } : Engine).Indexed := ⟨h.indexed.entry, h.indexed.output⟩
  refine ⟨⟨hindexed.commit _, ?_, ?_⟩, fun a ha => ?_⟩
  · rw [config_commit, Config.books_commit, Report.value?_applyTo, hvalues, h.value]
    rfl
  · rw [config_commit, Config.formulas_commit]
    exact h.formula
  · rw [config_commit, Config.Over] at ha
    obtain ⟨t, ht, hx⟩ := ha
    rw [show ({ e with host } : Engine).config = (e.calculationWith waits).config from rfl,
      Calculation.arrayRanges_commit (Calculation.untouched_endPass hexposing.plan rfl)] at ht
    exact (hexposing.exposes_endPass hcurrent).not_over a ⟨t, ht, hx⟩

lemma values_of_mirror (h : e.Stores x v) (hv : v ≠ .empty)
    (hover : ∀ a, e.config.Over a x → a ∈ (e.calculationWith waits).plan.cells) (hf : e.index.cell? p = some f)
    (hm : f.Mirror p x) (hexcluded : p ∉ e.config.changes.excluded)
    (hp : e.config.arrayRanges[p]? = none ∨ ∀ a, ¬ e.config.Over a x)
    (hrun : ((e.calculationWith waits).run e.host.issueGeneration e.cursor).1 = .completed r) {w : Scalar}
    (hw : r.values[p]? = some w) : w = v := by
  obtain ⟨hcurrent, -, rfl⟩ := Calculation.report_of_completed hrun
  obtain ⟨-, u, hu, rfl⟩ := Calculation.report_values.1 hw
  have hmirrors := Calculation.mirrors_endPass (exposing h hv hover) hf hm hexcluded hp hcurrent
  rw [hmirrors.2 u hu, Value.toScalar_ofScalar]

end Completed

/-! Reading from outside. -/

/-- A formula that is nothing but a reference to a cell gives what an array has spilled there, before what is
stored. -/
theorem evaluate_isCell (hn : (Node.parse { names := e.config.names, book := some p.book } text).IsCell p x)
    (hs : (e.config.books.sheet? x.book x.sheet).isSome) : (e.evaluate text p waits).1 =
      (Calculation.seededPass e.config e.options).spilled[x]?.getD (.ofScalar ((e.config.books.value? x).getD .empty)) := by
  generalize hv : (Calculation.seededPass e.config e.options).spilled[x]?.getD
    (.ofScalar ((e.config.books.value? x).getD .empty)) = v
  have hitem : v.IsItem := by
    rw [← hv]
    cases hu : (Calculation.seededPass e.config e.options).spilled[x]? with
    | none => exact Value.isItem_ofScalar _
    | some u =>
      obtain ⟨-, w, -, rfl⟩ := Calculation.spilled_seededPass.1 hu
      exact Value.isItem_ofScalar w
  obtain ⟨hresults, -, hdirty, hcycles, -⟩ := @Calculation.seededPass_spare e.config e.options
  unfold evaluate
  extract_lets s n i
  rcases hrun : i.evaluate s n waits with ⟨o, j⟩
  unfold Interpreter.evaluate at hrun
  have hread : ∀ t : Session, t.pass = i.session.pass → ∃ t' : Session,
      exec (s.evaluator.value n) { i.scope with waits, origin := { entry := i.session.entries + 1 } } t = (.ok v, t') ∧
        t'.pass = i.session.pass ∧ t'.awaited = t.awaited := by
    intro t ht
    have hpass : t.pass = Calculation.seededPass e.config e.options := ht
    refine ⟨t, ?_, ht, rfl⟩
    rw [Evaluator.exec_value_quiet hn hs (by simp [hpass, hresults]) (by simp [hpass, hcycles])
      ⟨by simp [hpass, hdirty], Pass.dirtyAnchorOver?_eq_none fun a r ha => by simp [hpass, hdirty] at ha⟩, hpass,
      Evaluator.ofScalar_stored, hv]
  obtain ⟨rfl, -⟩ := Interpreter.run_of_exec hrun hread
  exact hitem.isFlat.settled_eq

lemma Shows.evaluate_eq (h : e.Shows x v)
    (hn : (Node.parse { names := e.config.names, book := some p.book } text).IsCell p x) :
    (e.evaluate text p waits).1 = .ofScalar v := by
  have hs : (e.config.books.sheet? x.book x.sheet).isSome := by
    rw [← Books.isSome_value?, h.value, Option.isSome_some]
  have hspilled : (Calculation.seededPass e.config e.options).spilled[x]? = none := by
    rw [Option.eq_none_iff_forall_ne_some]
    intro u hu
    obtain ⟨⟨a, ha⟩, -⟩ := Calculation.spilled_seededPass.1 hu
    exact h.uncovered a ha
  rw [evaluate_isCell hn hs, hspilled, h.value]
  rfl

/-- A recorded array hides what is stored under it. -/
lemma evaluate_eq_of_over (ha : e.config.Over a x) {u : Scalar} (hu : e.config.arrayValues[x]? = some u)
    (hs : (e.config.books.sheet? x.book x.sheet).isSome)
    (hn : (Node.parse { names := e.config.names, book := some p.book } text).IsCell p x) :
    (e.evaluate text p waits).1 = .ofScalar u := by
  have hspilled : (Calculation.seededPass e.config e.options).spilled[x]? = some (.ofScalar u) :=
    Calculation.spilled_seededPass.2 ⟨⟨a, ha⟩, u, hu, rfl⟩
  rw [evaluate_isCell hn hs, hspilled, Option.getD_some]

/-! Histories. -/

/-- What may happen to an engine, if only some edits of cells are allowed. -/
inductive Next (allowed : Engine → Place → Cell → Prop) : Engine → Engine → Prop
  | setCell {e e' : Engine} {p : Place} {cell : Cell} : allowed e p cell → e.setCell p cell = .ok e' → Next allowed e e'
  | markDirty (e : Engine) (r : Region) : Next allowed e (e.markDirty r)
  | register (e : Engine) (f : FunctionDef) : Next allowed e (e.register f)
  | invalidate (e : Engine) : Next allowed e e.invalidate
  | evaluate (e : Engine) (text : String) (p : Place) (waits : Bool) : Next allowed e (e.evaluate text p waits).2
  | calculate (e : Engine) (waits : Bool) : Next allowed e (e.calculate waits).2

/-- Edits of other cells. -/
def Elsewhere (x : Place) (_ : Engine) (p : Place) (_ : Cell) : Prop := p ≠ x

/-- Edits that take no formula from the anchor of a recorded array. -/
def KeepsAnchors (e : Engine) (p : Place) (cell : Cell) : Prop :=
  e.config.arrayRanges[p]? = none ∨ (cell.formula.filter (·.hasText)).isSome

lemma Shows.next (h : e.Shows x v) (hv : v ≠ .empty) (hn : Next (Elsewhere x) e e') : e'.Shows x v := by
  have hhost : ∀ host, ({ e with host } : Engine).Shows x v := fun host =>
    ⟨⟨⟨h.indexed.entry, h.indexed.output⟩, h.value, h.formula⟩, h.uncovered⟩
  cases hn with
  | setCell hp hset =>
    obtain ⟨-, hbooks, hranges, hformulas, -, hindexed⟩ := setCell_ok hset
    refine ⟨⟨hindexed, ?_, ?_⟩, fun a ha => h.uncovered a ?_⟩
    · rw [hbooks, Books.value?_setCell, if_neg hp.symm, h.value]
    · rw [hformulas, if_neg hp.symm, h.formula]
    · rwa [Config.Over, hranges] at ha
  | markDirty r => exact ⟨⟨⟨h.indexed.entry, h.indexed.output⟩, h.value, h.formula⟩, h.uncovered⟩
  | register f => exact ⟨⟨indexed_reindex _, h.value, h.formula⟩, h.uncovered⟩
  | invalidate => exact hhost _
  | evaluate text p waits => exact hhost _
  | calculate waits =>
    rcases e.calculate_cases waits with ⟨r, host, hrun, heq⟩ | ⟨n, host, -, heq⟩
    · rw [heq]
      exact shows_commit h.toStores hv (fun a ha => absurd ha (h.uncovered a)) (congrArg Prod.fst hrun)
    · rw [heq]
      exact hhost host

lemma Shows.later (h : e.Shows x v) (hv : v ≠ .empty) (hn : ReflTransGen (Next (Elsewhere x)) e e') : e'.Shows x v := by
  induction hn with
  | refl => exact h
  | tail _ hn ih => exact ih.next hv hn

/-- The anchors of recorded arrays have formulas. -/
structure Tended (e : Engine) : Prop where
  indexed : e.Indexed
  anchor : ∀ (a : Place) (r : Range), e.config.arrayRanges[a]? = some r → e.config.formulas[a]?.isSome

lemma tended_load {d : Dataset} (h : (Config.load d).arrayRanges = ∅) : (e.load d).Tended := by
  refine ⟨indexed_reindex _, fun a r hr => ?_⟩
  have hempty : (∅ : PlaceMap Range)[a]? = some r := h ▸ hr
  simp at hempty

lemma Tended.commit {host : Host} (h : e.Tended)
    (hrun : ((e.calculationWith waits).run e.host.issueGeneration e.cursor).1 = .completed r) :
    ({ e with host }.commit r).Tended := by
  have hindexed : ({ e with host } : Engine).Indexed := ⟨h.indexed.entry, h.indexed.output⟩
  have hanchors : ∀ (a : Place) (r : Range),
      ((e.calculationWith waits).endPass e.host.issueGeneration e.cursor).anchors[a]? = some r →
      e.config.formulas[a]?.isSome := by
    refine Calculation.endPass_spec (J := fun t : Pass =>
        ∀ (a : Place) (r : Range), t.anchors[a]? = some r → e.config.formulas[a]?.isSome)
      (Evaluator.admits_of_store fun t p f w hf ht a r hr => ?_) (Calculation.lenient_true _) (d := e.pending) rfl rfl (fun a r hr => ?_)
      fun s p _ hs a r hr => ?_
    · by_cases hap : a = p
      · subst hap
        rw [← h.indexed.entry]
        exact Option.isSome_iff_exists.2 ⟨f, hf⟩
      · rw [Pass.anchors_store hap] at hr
        exact ht a r hr
    · rw [Calculation.anchors_start] at hr
      exact h.anchor a r hr
    · rw [(s.sameArrays_invalidate p).anchors] at hr
      exact hs a r hr
  obtain ⟨-, -, rfl⟩ := Calculation.report_of_completed hrun
  refine ⟨hindexed.commit _, fun a t ht => ?_⟩
  rw [config_commit] at ht
  rw [config_commit, Config.formulas_commit]
  rw [show ({ e with host } : Engine).config = (e.calculationWith waits).config from rfl,
    Calculation.arrayRanges_commit (Calculation.untouched_endPass (d := e.pending) rfl rfl)] at ht
  exact hanchors a t ht

lemma Tended.next (h : e.Tended) (hn : Next KeepsAnchors e e') : e'.Tended := by
  have hhost : ∀ host, ({ e with host } : Engine).Tended := fun host =>
    ⟨⟨h.indexed.entry, h.indexed.output⟩, h.anchor⟩
  cases hn with
  | setCell hp hset =>
    obtain ⟨-, -, hranges, hformulas, -, hindexed⟩ := setCell_ok hset
    refine ⟨hindexed, fun a r hr => ?_⟩
    rw [hranges] at hr
    rw [hformulas]
    split
    · rename_i hap
      subst hap
      exact hp.resolve_left fun hnone => by simp [hnone] at hr
    · exact h.anchor a r hr
  | markDirty r => exact ⟨⟨h.indexed.entry, h.indexed.output⟩, h.anchor⟩
  | register f => exact ⟨indexed_reindex _, h.anchor⟩
  | invalidate => exact hhost _
  | evaluate text p waits => exact hhost _
  | calculate waits =>
    rcases e.calculate_cases waits with ⟨r, host, hrun, heq⟩ | ⟨n, host, -, heq⟩
    · rw [heq]
      exact h.commit (congrArg Prod.fst hrun)
    · rw [heq]
      exact hhost host

lemma Tended.later (h : e.Tended) (hn : ReflTransGen (Next KeepsAnchors) e e') : e'.Tended := by
  induction hn with
  | refl => exact h
  | tail _ hn ih => exact ih.next hn

/-- A cell has a formula that can be calculated. -/
structure Calculable (e : Engine) (a : Place) : Prop where
  formula : e.config.formulas[a]?.isSome
  included : a ∉ e.config.changes.excluded
  acyclic : ¬ e.index.OnCycle e.config.changes.excluded a

lemma mem_cells_of_over (h : e.Indexed) {s : Region} (hs : s ∈ e.config.changes.ranges) (hx : s.contains x = true)
    (ha : e.config.Over a x) (hc : e.Calculable a) : a ∈ (e.calculationWith waits).plan.cells := by
  obtain ⟨t, ht, hax⟩ := ha
  have hentry := hc.formula
  rw [← h.entry, Option.isSome_iff_exists] at hentry
  obtain ⟨f, hf⟩ := hentry
  refine Plan.mem_cells.2 ⟨closed_dirty.cell a f hf hc.included (Or.inr (Or.inl ⟨s, hs, ?_⟩)), hc.acyclic⟩
  rw [h.output a f hf, Config.output, ht]
  exact Region.overlaps_of_contains hax hx

lemma run_of_calculate (h : e.calculate waits = (.completed r, e')) : ∃ host,
    ((e.calculationWith waits).run e.host.issueGeneration e.cursor).1 = .completed r ∧ e' = { e with host }.commit r := by
  rcases e.calculate_cases waits with ⟨r', host, hrun, heq⟩ | ⟨n, host, -, heq⟩
  · rw [h] at heq
    obtain ⟨hr, he⟩ := Prod.mk.inj heq
    obtain rfl := Outcome.completed.inj hr
    exact ⟨host, congrArg Prod.fst hrun, he⟩
  · rw [h] at heq
    exact nomatch (Prod.mk.inj heq).1

lemma Shows.values_eq (h : e.Shows x v) (hv : v ≠ .empty) (hf : e.index.cell? p = some f) (hm : f.Mirror p x)
    (hexcluded : p ∉ e.config.changes.excluded) (hrun : e.calculate waits = (.completed r, e')) {w : Scalar}
    (hw : r.values[p]? = some w) : w = v := by
  obtain ⟨host, hrun, -⟩ := run_of_calculate hrun
  exact values_of_mirror h.toStores hv (fun a ha => absurd ha (h.uncovered a)) hf hm hexcluded (Or.inr h.uncovered)
    hrun hw

/-- A value put into a cell, over which only arrays lie that can be calculated, is there after a calculation. -/
theorem shows_of_setCell {e₁ e₂ : Engine} (hset : e.setCell x (.ofValue v) = .ok e₁) (hv : v ≠ .empty)
    (hover : ∀ a, e.config.Over a x → e₁.Calculable a) (hrun : e₁.calculate waits = (.completed r, e₂)) :
    e₂.Shows x v ∧ ∀ p f, e₁.index.cell? p = some f → f.Mirror p x → p ∉ e₁.config.changes.excluded →
      e₁.config.arrayRanges[p]? = none → ∀ w, r.values[p]? = some w → w = v := by
  have hstores := stores_setCell hset
  obtain ⟨-, -, hranges, -, hchanges, hindexed⟩ := setCell_ok hset
  have hplanned : ∀ a, e₁.config.Over a x → a ∈ (e₁.calculationWith waits).plan.cells := by
    intro a ha
    refine mem_cells_of_over hindexed (s := x.region) (by simp [hchanges]) (Place.contains_region.2 rfl) ha (hover a ?_)
    rwa [Config.Over, hranges] at ha
  obtain ⟨host, hcompleted, rfl⟩ := run_of_calculate hrun
  refine ⟨shows_commit hstores hv hplanned hcompleted, fun p f hf hm hexcluded hp w hw => ?_⟩
  exact values_of_mirror hstores hv hplanned hf hm hexcluded (Or.inl hp) hcompleted hw

/-- An edited cell reads back as what was written, for as long as it is not edited again. Not so where an edit has
taken the formula from the anchor of an array, where an array is excluded from calculation, or where it lies on a
cycle: such arrays stay. -/
theorem reads_back {d : Dataset} {e₀ e₁ e₂ e₃ : Engine} (hload : (Config.load d).arrayRanges = ∅)
    (hhistory : ReflTransGen (Next KeepsAnchors) (e₀.load d) e) (hx : e.config.arrayRanges[x]? = none)
    (hset : e.setCell x (.ofValue v) = .ok e₁) (hv : v ≠ .empty)
    (hover : ∀ a, e.config.Over a x →
      a ∉ e₁.config.changes.excluded ∧ ¬ e₁.index.OnCycle e₁.config.changes.excluded a)
    (hrun : e₁.calculate waits = (.completed r, e₂)) (hlater : ReflTransGen (Next (Elsewhere x)) e₂ e₃) :
    (∀ text p waits, (Node.parse { names := e₃.config.names, book := some p.book } text).IsCell p x →
      (e₃.evaluate text p waits).1 = .ofScalar v) ∧
    (∀ p f, e₁.index.cell? p = some f → f.Mirror p x → p ∉ e₁.config.changes.excluded →
      e₁.config.arrayRanges[p]? = none → ∀ w, r.values[p]? = some w → w = v) ∧
    ∀ waits r e₄, e₃.calculate waits = (.completed r, e₄) → ∀ p f, e₃.index.cell? p = some f → f.Mirror p x →
      p ∉ e₃.config.changes.excluded → ∀ w, r.values[p]? = some w → w = v := by
  have htended := (tended_load hload).later hhistory
  obtain ⟨-, -, -, hformulas, -, -⟩ := setCell_ok hset
  have hcalculable : ∀ a, e.config.Over a x → e₁.Calculable a := by
    intro a ha
    obtain ⟨hincluded, hacyclic⟩ := hover a ha
    refine ⟨?_, hincluded, hacyclic⟩
    obtain ⟨t, ht, -⟩ := ha
    have hax : a ≠ x := by
      rintro rfl
      simp [hx] at ht
    rw [hformulas, if_neg hax]
    exact htended.anchor a t ht
  obtain ⟨hshows, hfirst⟩ := shows_of_setCell hset hv hcalculable hrun
  have hlast := hshows.later hv hlater
  refine ⟨fun text p waits hn => hlast.evaluate_eq hn, hfirst, fun waits r e₄ hrun p f hf hm hexcluded w hw => ?_⟩
  exact hlast.values_eq hv hf hm hexcluded hrun hw

end Engine

end Spreadsheet
