import Spreadsheet.Engine.Basic
import Spreadsheet.Proofs.Engine.Calculation
import Spreadsheet.Proofs.Engine.Config
import Spreadsheet.Proofs.Engine.Report

/-! Engines that keep plain formulas: what edits and calculations leave in their tables. -/

namespace Spreadsheet

open Std Dependency Formula

/-- The text of a formula in a cell, read with the given names, is that of a plain formula. -/
def PlainText (r : Registry) (names : NameTable) (p : Place) (text : String) : Prop :=
  (Node.parse { names, book := some p.book } text).Plain r

/-- The configuration after a cell was replaced by one whose formula, if any, has a text. -/
def Config.setCell (c : Config) (p : Place) (cell : Cell) : Config :=
  { c with
    books := c.books.setCell p cell
    formulas := match cell.formula with
      | some f => c.formulas.insert p f
      | none => c.formulas.erase p
    changes.ranges := c.changes.ranges ++ [p.region] }

lemma Config.formulas_setCell {c : Config} (h : ∀ q, c.formulas[q]? = c.books.formula? q) {p : Place}
    (hp : (c.books.sheet? p.book p.sheet).isSome) (cell : Cell) (q : Place) :
    (c.setCell p cell).formulas[q]? = (c.setCell p cell).books.formula? q := by
  obtain ⟨s, hs⟩ := Option.isSome_iff_exists.1 hp
  simp only [setCell, Books.formula?_setCell, hs, Option.bind_some]
  cases cell.formula with
  | none =>
    simp only [ExtTreeMap.getElem?_erase, Std.compare_eq_iff_eq, h]
    exact if_congr eq_comm rfl rfl
  | some f =>
    simp only [ExtTreeMap.getElem?_insert, Std.compare_eq_iff_eq, h]
    exact if_congr eq_comm rfl rfl

/-- Every array covers its anchor. -/
def Config.Anchored (c : Config) : Prop :=
  ∀ (a : Place) (r : Range), c.arrayRanges[a]? = some r → (a.area r).contains a = true

lemma Config.Anchored.contains_output {c : Config} (h : c.Anchored) (p : Place) : (c.output p).contains p = true := by
  unfold output
  cases hr : c.arrayRanges[p]? with
  | some r => exact h p r hr
  | none => exact Place.contains_region.2 rfl

lemma Config.anchored_load {d : Dataset} (h : d.Bare) : (load d).Anchored := by
  intro a r hr
  have hempty : (∅ : PlaceMap Range)[a]? = some r := arrayRanges_load h ▸ hr
  simp at hempty

namespace Engine

variable {e : Engine}

/-- The changes that the next calculation starts from. -/
def pending (e : Engine) : Changes := { e.config.changes with volatile := e.options.volatile }

/-- An engine that keeps plain formulas. -/
structure Plain (e : Engine) : Prop where
  excluded : e.config.changes.excluded = ∅
  others : e.config.others = ∅
  names : e.config.names = e.config.books.nameTable
  formulas : ∀ p, e.config.formulas[p]? = e.config.books.formula? p
  text : ∀ p f, e.config.books.formula? p = some f → PlainText e.registry e.config.names p f.text
  anchored : e.config.Anchored
  cell? : ∀ p, e.index.cell? p =
    (e.config.books.formula? p).map fun f => Entry.ofPlain e.registry e.config.names p f.text (e.config.output p)
  other? : ∀ k, e.index.other? k = none

lemma plain_index {c : Config} {r : Registry} {i : Index} (ha : c.Anchored)
    (htext : ∀ p f, c.books.formula? p = some f → PlainText r c.names p f.text)
    (hcell : ∀ p, i.cell? p = (c.books.formula? p).map fun f => Entry.ofPlain r c.names p f.text (c.output p)) :
    i.Plain r := by
  intro p x hx
  rw [hcell, Option.map_eq_some_iff] at hx
  obtain ⟨f, hf, rfl⟩ := hx
  refine ⟨?_, Entry.references_ofPlain .., ?_⟩
  · rw [Entry.node_ofPlain]
    exact htext p f hf
  · rw [Entry.output_ofPlain]
    exact ha.contains_output p

lemma Plain.index (h : e.Plain) : e.index.Plain e.registry := plain_index h.anchored h.text h.cell?

lemma cell?_index_plain {c : Config} {r : Registry} (hf : ∀ p, c.formulas[p]? = c.books.formula? p)
    (htext : ∀ p f, c.books.formula? p = some f → PlainText r c.names p f.text) (p : Place) :
    (c.index r).cell? p = (c.books.formula? p).map fun f => Entry.ofPlain r c.names p f.text (c.output p) := by
  rw [Config.cell?_index, hf]
  cases hp : c.books.formula? p with
  | none => rw [Option.map_none, Option.map_none]
  | some f =>
    rw [Option.map_some, Option.map_some, Entry.ofText_plain (s := ⟨r, c.books, c.names⟩) (htext p f hp)]

lemma plain_load {d : Dataset} (hd : d.Own) (ha : (Config.load d).Anchored) (hb : d.books.Proper)
    (hown : ∀ p f, d.books.formula? p = some f → f.hasText = true)
    (htext : ∀ p f, d.books.formula? p = some f → PlainText e.registry d.books.nameTable p f.text) :
    (e.load d).Plain := by
  have hbooks := Config.books_load hd
  have hnames := Config.names_load hd
  have hformulas : ∀ p, (Config.load d).formulas[p]? = (Config.load d).books.formula? p := fun p => by
    rw [hbooks, Config.formulas_load hd hb hown]
  have htext : ∀ p f, (Config.load d).books.formula? p = some f →
      PlainText e.registry (Config.load d).names p f.text := by
    rw [hbooks, hnames]
    exact htext
  exact ⟨Config.excluded_load hd, Config.others_load hd, hnames.trans (by rw [← hbooks]; rfl), hformulas, htext, ha,
    cell?_index_plain hformulas htext, Config.other?_index (Config.others_load hd)⟩

lemma setCell_eq {p : Place} {cell : Cell} {e' : Engine} (h : e.setCell p cell = .ok e')
    (ht : ∀ f, cell.formula = some f → f.hasText = true) :
    (e.config.books.sheet? p.book p.sheet).isSome ∧ e' = { e with config := e.config.setCell p cell }.reindex := by
  rw [setCell] at h
  split at h
  · cases h
  · rename_i hs
    refine ⟨by simpa [Option.isSome_iff_ne_none] using hs, ?_⟩
    obtain rfl := Except.ok.inj h
    have hfilter : cell.formula.filter (·.hasText) = cell.formula := by
      cases hf : cell.formula with
      | none => rfl
      | some f => simp [ht f hf]
    rw [hfilter]
    rfl

lemma plain_setCell (h : e.Plain) {p : Place} {cell : Cell} (hs : (e.config.books.sheet? p.book p.sheet).isSome)
    (htext : ∀ f, cell.formula = some f → PlainText e.registry e.config.names p f.text) :
    ({ e with config := e.config.setCell p cell }.reindex).Plain := by
  have hformulas := Config.formulas_setCell h.formulas hs cell
  have htexts : ∀ q f, (e.config.setCell p cell).books.formula? q = some f →
      PlainText e.registry (e.config.setCell p cell).names q f.text := by
    intro q f hf
    simp only [Config.setCell, Books.formula?_setCell] at hf
    split at hf
    · rename_i hq
      obtain ⟨_, _, hcell⟩ := Option.bind_eq_some_iff.1 hf
      subst hq
      exact htext f hcell
    · exact h.text q f hf
  exact ⟨h.excluded, h.others, h.names.trans (Books.nameTable_congr (Books.outline_setCell cell).symm), hformulas,
    htexts,
    h.anchored, cell?_index_plain hformulas htexts, Config.other?_index h.others⟩

/-- The calculation that an engine runs. -/
def calculation (e : Engine) : Calculation where
  registry := e.registry
  options := e.options
  config := e.config
  index := e.index
  waits := false
  generation := e.host.issueGeneration.generations.latest
  plan := Plan.make e.index e.config.features e.pending

lemma plain_calculation (h : e.Plain) : e.calculation.Plain e.pending where
  plan := rfl
  index := h.index
  output p x hx := by
    have hx : e.index.cell? p = some x := hx
    rw [h.cell?, Option.map_eq_some_iff] at hx
    obtain ⟨f, -, rfl⟩ := hx
    rfl
  waits := rfl
  others := by
    rw [List.eq_nil_iff_forall_not_mem]
    intro k hk
    obtain ⟨x, hx⟩ := dirty_other (Plan.mem_others.1 hk)
    rw [h.other?] at hx
    cases hx
  excluded := rfl

lemma calculate_of_run {r : Report} {host : Host} {waits : Bool}
    (h : ({ e.calculation with waits } : Calculation).run e.host.issueGeneration e.cursor = (.completed r, host)) :
    e.calculate waits = (.completed r, { e with host }.commit r) := by
  unfold calculate
  unfold calculation pending at h
  simp only [h]

/-- What the calculation of an engine reports. -/
def report (e : Engine) : Report := e.calculation.report e.calculation.lastPass e.calculation.again ∅

lemma calculate_completed (h : e.Plain) :
    ∃ host, e.calculate false = (.completed e.report, { e with host }.commit e.report) := by
  obtain ⟨host, hrun⟩ := @Calculation.run_completed _ _ e.host.issueGeneration e.cursor (plain_calculation h) rfl
  exact ⟨host, calculate_of_run hrun⟩

end Engine

end Spreadsheet
