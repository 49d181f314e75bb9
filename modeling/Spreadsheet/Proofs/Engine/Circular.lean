import Mathlib.Logic.Relation
import Spreadsheet.Proofs.Engine.Repair
import Spreadsheet.Proofs.Engine.Simple

/-! When an engine takes cells for circular that are not so once their workbooks are loaded anew. Such cycles lead
through arrays that were recorded in earlier calculations, and since circular cells are not calculated, they stay. -/

namespace Spreadsheet

open Std Dependency Formula Relation

lemma transGen_around {α : Type} {R : α → α → Prop} {p : α} (h : TransGen R p p) :
    TransGen (fun x y => R x y ∧ TransGen R p y ∧ TransGen R y p) p p := by
  have hpath : ∀ q, TransGen R p q → ReflTransGen R q p →
      TransGen (fun x y => R x y ∧ TransGen R p y ∧ TransGen R y p) p q := by
    intro q hq
    induction hq with
    | single hr => exact fun hback => .single ⟨hr, .single hr, .trans_right hback h⟩
    | tail hq hr ih => exact fun hback => (ih (.head hr hback)).tail ⟨hr, hq.tail hr, .trans_right hback h⟩
  exact hpath p h .refl

namespace Dependency.Index

variable {i i' : Index} {excluded : PlaceSet} {p q : Place}

/-- A cycle leads through both cells. -/
def OnOneCycle (i : Index) (excluded : PlaceSet) (p q : Place) : Prop :=
  TransGen (i.ReadsAmong excluded) p q ∧ TransGen (i.ReadsAmong excluded) q p

lemma OnOneCycle.onCycle (h : i.OnOneCycle excluded p q) : i.OnCycle excluded q := h.2.trans h.1

/-- The cells have formulas that mention the same, but may write elsewhere. -/
def SameReferences (i i' : Index) : Prop :=
  ∀ p, (i.cell? p).map (·.references) = (i'.cell? p).map (·.references)

lemma OnCycle.congr (h : i.OnCycle excluded p) (hsame : i.SameReferences i')
    (houtput : ∀ q e e', i.OnOneCycle excluded p q → i.cell? q = some e → i'.cell? q = some e' →
      e'.output = e.output) : i'.OnCycle excluded p := by
  refine TransGen.lift id ?_ p p (transGen_around h)
  rintro x y ⟨⟨⟨e, f, he, hf, t, ht, ho⟩, hx, hy⟩, hpy⟩
  refine ⟨?_, hx, hy⟩
  obtain ⟨e', he', hrefs⟩ := Option.map_eq_some_iff.1 ((hsame x).symm.trans (congrArg _ he))
  obtain ⟨f', hf', -⟩ := Option.map_eq_some_iff.1 ((hsame y).symm.trans (congrArg _ hf))
  exact ⟨e', f', he', hf', t, hrefs ▸ ht, houtput y f f' hpy hf hf' ▸ ho⟩

end Dependency.Index

lemma Dependency.planned_eq {i : Index} {features : List Feature} {c : Changes}
    (h : ∀ p x, i.cell? p = some x → .cell p ∈ dirty i features c) : planned i features c = i.cells.toList.toArray := by
  rw [planned, List.filter_eq_self.2]
  rintro ⟨p, x⟩ hx
  rw [ExtTreeSet.contains_iff_mem, mem_foldl_cells]
  exact Or.inl (h p x (ExtTreeMap.mem_toList_iff_getElem?_eq_some.1 hx))

namespace Calculation

/-- Two calculations go through the same cells in the same order, and know of no arrays. -/
structure Like (c c' : Calculation) : Prop where
  registry : c'.registry = c.registry
  options : c'.options = c.options
  books : c'.config.books = c.config.books
  index : c'.index = c.index
  arrayRanges : c.config.arrayRanges = ∅
  arrayRanges' : c'.config.arrayRanges = ∅
  excluded : c'.config.changes.excluded = c.config.changes.excluded
  cells : c'.plan.cells = c.plan.cells
  cycles : c'.plan.cycles = c.plan.cycles

namespace Like

variable {c c' : Calculation} (h : c.Like c')

include h

lemma start : c'.start = c.start := by
  have hseed : seededPass c'.config c'.options = seededPass c.config c.options := by
    simp only [seededPass_eq, h.arrayRanges, h.arrayRanges', h.options, ExtTreeMap.toList_eq_nil_iff.2 rfl, List.foldl_nil]
  rw [Calculation.start, Calculation.start, hseed, h.cycles, h.cells]

lemma sweep (s : Pass) (l : List Place) : c'.sweep s l = c.sweep s l := by
  have hsettle : c'.settle = c.settle := by
    funext s p
    simp only [settle, h.index, h.books, h.registry]
  rw [Calculation.sweep, Calculation.sweep, hsettle]

lemma firstPass : c'.firstPass = c.firstPass := by
  rw [Calculation.firstPass, Calculation.firstPass, h.start, h.cells, h.sweep]

lemma again : c'.again = c.again := by
  have hmoved : c'.movedAnchors c.firstPass = c.movedAnchors c.firstPass := by
    simp only [movedAnchors, h.arrayRanges, h.arrayRanges']
  rw [Calculation.again, Calculation.again, h.firstPass, spillReaders_eq, spillReaders_eq, moves, moves, hmoved, h.excluded,
    h.index]

lemma lastPass : c'.lastPass = c.lastPass := by
  rw [Calculation.lastPass, Calculation.lastPass, reopened, reopened, h.firstPass, h.again, h.sweep]

lemma report : let r := c.report c.lastPass c.again ∅
    let r' := c'.report c'.lastPass c'.again ∅
    r'.values = r.values ∧ r'.arrayRanges = r.arrayRanges ∧ r'.arrayValues = r.arrayValues := by
  simp only [Calculation.report, calculated, h.lastPass, h.again, h.cells, h.cycles, and_self]

end Like

end Calculation

namespace Engine

variable {e e' : Engine} {p : Place}

/-- Two engines keep the same formulas. -/
structure SameFormulas (e e' : Engine) : Prop where
  registry : e'.registry = e.registry
  names : e'.config.names = e.config.names
  formula? : ∀ p, e'.config.books.formula? p = e.config.books.formula? p

lemma SameFormulas.references (h : e.SameFormulas e') (he : e.Plain) (he' : e'.Plain) :
    e.index.SameReferences e'.index := by
  intro p
  rw [he.cell?, he'.cell?, h.registry, h.names, h.formula?]
  cases e.config.books.formula? p <;> simp [Entry.ofPlain]

lemma Plain.output_eq (h : e.Plain) {x : Entry} (hx : e.index.cell? p = some x) : x.output = e.config.output p := by
  rw [h.cell?, Option.map_eq_some_iff] at hx
  obtain ⟨f, -, rfl⟩ := hx
  exact Entry.output_ofPlain ..

lemma Plain.mem_cycles (h : e.Plain) : p ∈ e.calculation.plan.cycles ↔
    .cell p ∈ dirty e.index e.config.features e.pending ∧ e.index.OnCycle ∅ p := by
  rw [← show e.pending.excluded = ∅ from h.excluded]
  exact Plan.mem_cycles

/-- Where an engine with the same formulas and no arrays sees no cycle, one that leads through the cell goes through
the anchor of an array. -/
theorem exists_array_of_onCycle (h : e.Plain) (h' : e'.Plain) (hsame : e.SameFormulas e')
    (hranges : e'.config.arrayRanges = ∅) (hp : e.index.OnCycle ∅ p) (hp' : ¬ e'.index.OnCycle ∅ p) :
    ∃ q r, e.config.arrayRanges[q]? = some r ∧ e.index.OnOneCycle ∅ p q := by
  by_contra hnone
  push Not at hnone
  refine hp' (hp.congr (hsame.references h h') fun q x x' hq hx hx' => ?_)
  have hq : e.config.arrayRanges[q]? = none := by
    rw [Option.eq_none_iff_forall_ne_some]
    exact fun r hr => hnone q r hr hq
  rw [h.output_eq hx, h'.output_eq hx', Config.output, Config.output, hranges, hq, ExtTreeMap.getElem?_empty]

lemma acyclic_of_calculated (h : e.Plain) (hp : p ∈ e.calculation.calculated e.calculation.again) :
    ¬ e.index.OnCycle ∅ p := by
  have hexcluded : e.config.changes.excluded = ∅ := h.excluded
  rcases Calculation.mem_calculated.1 hp with hp | hp
  · have hacyclic := (Plan.mem_cells.1 hp).2
    rwa [show e.pending.excluded = ∅ from hexcluded] at hacyclic
  · have hacyclic := (Plan.mem_cells.1 ((Calculation.sublist_spillReaders _ _).subset hp)).2
    rwa [show (e.calculation.moves e.calculation.firstPass).excluded = ∅ from hexcluded] at hacyclic

/-- What is on a cycle is so after a calculation: no member is calculated, so none loses its array. -/
lemma onCycle_calculate (h : e.Plain) (hp : e.index.OnCycle ∅ p) : (e.calculate false).2.index.OnCycle ∅ p := by
  obtain ⟨host, hcalculate, hafter⟩ := calculate_plain h
  have hconfig : ({ e with host }.commit e.report).config = e.config.commit e.report := config_commit
  have hregistry : ({ e with host }.commit e.report).registry = e.registry := registry_commit
  rw [hcalculate]
  dsimp only
  generalize { e with host }.commit e.report = x at hafter hconfig hregistry
  have hsame : e.SameFormulas x := by
    refine ⟨hregistry, by rw [hconfig, Config.names_commit], fun q => ?_⟩
    rw [hconfig, Config.books_commit, Report.formula?_applyTo]
  have hranges : (e.config.commit e.report).arrayRanges = e.calculation.lastPass.anchors :=
    Calculation.arrayRanges_commit (c := e.calculation) Calculation.untouched_lastPass
  refine hp.congr (hsame.references h hafter) fun q y y' hq hy hy' => ?_
  have hkept : e.calculation.lastPass.anchors[q]? = e.config.arrayRanges[q]? :=
    Calculation.untouched_lastPass q fun hchanged =>
      acyclic_of_calculated h (Calculation.calculated_of_changed hchanged) hq.onCycle
  rw [h.output_eq hy, hafter.output_eq hy', Config.output, Config.output, hconfig, hranges, hkept]

lemma values_of_mem_cycles (h : e.Plain) (hp : p ∈ e.calculation.plan.cycles) :
    e.report.values[p]? = some (.error .cycle) := by
  have hc := plain_calculation h
  have hcalculated : p ∉ e.calculation.calculated e.calculation.again := fun hmem => hc.acyclic hmem hp
  refine Calculation.report_values.2 ⟨Or.inl hp, .error .cycle, ?_, rfl⟩
  rw [Calculation.results_lastPass_of_not_mem hc hcalculated, if_pos hp]

/-- What happens to an engine while no cell is edited. -/
inductive Unedited : Engine → Engine → Prop
  | declare {e : Engine} {changes : Changes} : changes.excluded = ∅ → Unedited e { e with config.changes := changes }
  | calculate (e : Engine) : Unedited e (e.calculate false).2

lemma Plain.unedited (h : e.Plain) (hw : Unedited e e') : e'.Plain ∧ ∀ p, e.index.OnCycle ∅ p → e'.index.OnCycle ∅ p := by
  cases hw with
  | declare hx =>
    exact ⟨⟨hx, h.others, h.names, h.formulas, h.text, h.anchored, h.cell?, h.other?⟩, fun p hp => hp⟩
  | calculate =>
    refine ⟨?_, fun p hp => onCycle_calculate h hp⟩
    obtain ⟨host, hcalculate, hafter⟩ := calculate_plain h
    rw [hcalculate]
    dsimp only
    exact hafter

/-- Only an edit takes a cell off a cycle: without one the cell is `#CYCLE!` in every calculation it is part of. -/
theorem circular_until_edited (h : e.Reached) (hp : e.index.OnCycle ∅ p) (hw : ReflTransGen Unedited e e')
    (hdirty : .cell p ∈ dirty e'.index e'.config.features e'.pending) :
    ∃ r, (e'.calculate false).1 = .completed r ∧ r.values[p]? = some (.error .cycle) := by
  have hlater : e'.Plain ∧ e'.index.OnCycle ∅ p := by
    clear hdirty
    induction hw with
    | refl => exact ⟨h.plain.2, hp⟩
    | tail _ hw ih => exact ⟨(ih.1.unedited hw).1, (ih.1.unedited hw).2 p ih.2⟩
  obtain ⟨host, hcalculate⟩ := calculate_completed hlater.1
  exact ⟨e'.report, by rw [hcalculate], values_of_mem_cycles hlater.1 (hlater.1.mem_cycles.2 ⟨hdirty, hlater.2⟩)⟩

/-- Nothing is recorded from earlier calculations, and everything is to be calculated. -/
structure Fresh (e : Engine) : Prop where
  arrayRanges : e.config.arrayRanges = ∅
  dirty : ∀ p x, e.index.cell? p = some x → .cell p ∈ dirty e.index e.config.features e.pending

lemma fresh_load {d : Dataset} (hd : d.Bare) (hforce : d.force = true) : (e.load d).Fresh where
  arrayRanges := Config.arrayRanges_load hd
  dirty := by
    intro p x hx
    refine closed_dirty.cell p x hx ?_ (Or.inl (Or.inl hforce))
    change p ∉ (Config.load d).changes.excluded
    simp [Config.excluded_load hd.toOwn]

section Alike

variable (h : e.Plain) (h' : e'.Plain) (hsame : e.SameFormulas e') (hfresh : e.Fresh) (hfresh' : e'.Fresh)

include h h' hsame hfresh hfresh'

lemma index_eq : e'.index = e.index := by
  have hcells : e'.index.cells = e.index.cells := by
    refine ExtTreeMap.ext_getElem? fun p => ?_
    change e'.index.cell? p = e.index.cell? p
    rw [h.cell?, h'.cell?, hsame.registry, hsame.names, hsame.formula?]
    simp only [Config.output, hfresh.arrayRanges, hfresh'.arrayRanges]
  have hothers : e'.index.others = e.index.others :=
    ExtTreeMap.ext_getElem? fun k => (h'.other? k).trans (h.other? k).symm
  exact congrArg₂ Index.mk hcells hothers

lemma planned_like :
    planned e'.index e'.config.features e'.pending = planned e.index e.config.features e.pending := by
  rw [planned_eq hfresh.dirty, planned_eq hfresh'.dirty, index_eq h h' hsame hfresh hfresh']

lemma like_calculation (hbooks : e'.config.books = e.config.books) (hoptions : e'.options = e.options) :
    e.calculation.Like e'.calculation where
  registry := hsame.registry
  options := hoptions
  books := hbooks
  index := index_eq h h' hsame hfresh hfresh'
  arrayRanges := hfresh.arrayRanges
  arrayRanges' := hfresh'.arrayRanges
  excluded := h'.excluded.trans h.excluded.symm
  cells := congrArg (fun a => placesOf a (Plan.readGraph a).acyclicOrder) (planned_like h h' hsame hfresh hfresh')
  cycles := congrArg (fun a => placesOf a (Plan.readGraph a).cycles.flatten) (planned_like h h' hsame hfresh hfresh')

end Alike

/-! Workbooks that are loaded anew. -/

lemma Reached.simple (h : e.Reached) : e.config.books.Proper ∧
    ∀ p f, e.config.books.formula? p = some f → f.isSimple e.config.books.nameTable p = true := by
  induction h with
  | @load e d hr hd ha hb hsimple =>
    rw [show (e.load d).config.books = (Config.load d).books from rfl, Config.books_load hd]
    exact ⟨hb, hsimple⟩
  | @setCell e e' p cell h hsimple he ih =>
    obtain ⟨-, rfl⟩ := setCell_eq he fun f hf => StoredFormula.hasText_of_isSimple (hsimple f hf)
    have houtline : (e.config.books.setCell p cell).outline = e.config.books.outline := Books.outline_setCell cell
    have hnames := Books.nameTable_congr houtline
    refine ⟨ih.1.congr houtline, fun q f hf => ?_⟩
    change f.isSimple (e.config.books.setCell p cell).nameTable q = true
    rw [hnames]
    change (e.config.books.setCell p cell).formula? q = some f at hf
    rw [Books.formula?_setCell] at hf
    split at hf
    · rename_i hq
      obtain ⟨_, _, hf⟩ := Option.bind_eq_some_iff.1 hf
      rw [hq, ← h.plain.2.names]
      exact hsimple f hf
    · exact ih.2 q f hf
  | declare _ _ ih => exact ih
  | @calculate e h ih =>
    obtain ⟨host, hcalculate, -⟩ := calculate_plain h.plain.2
    have hbooks : ({ e with host }.commit e.report).config.books = e.report.applyTo e.config.books := by
      rw [config_commit, Config.books_commit]
    have houtline : (e.report.applyTo e.config.books).outline = e.config.books.outline := Report.outline_applyTo
    rw [hcalculate]
    dsimp only
    rw [hbooks, Books.nameTable_congr houtline]
    refine ⟨ih.1.congr houtline, fun p f hf => ih.2 p f ?_⟩
    rwa [Report.formula?_applyTo] at hf

section Loaded

variable {d : Dataset} {e₀ : Engine} (h : e.Reached) (hd : d.Bare) (hbooks : d.books = e.config.books)
  (hregistry : e₀.registry = .builtin)

include h hd hbooks hregistry

lemma reached_load : (e₀.load d).Reached := by
  refine .load hregistry hd.toOwn (Config.anchored_load hd) ?_ ?_
  · rw [hbooks]
    exact h.simple.1
  · rw [hbooks]
    exact h.simple.2

lemma sameFormulas_load : e.SameFormulas (e₀.load d) where
  registry := hregistry.trans h.plain.1.symm
  names := by
    rw [h.plain.2.names, ← hbooks]
    exact Config.names_load hd.toOwn
  formula? := by
    rw [show (e₀.load d).config.books = (Config.load d).books from rfl, Config.books_load hd.toOwn, hbooks]
    exact fun _ => rfl

/-- A cell that is planned as circular is `#CYCLE!` also when its workbooks are loaded anew, unless a cycle leads from
it through the anchor of an array. -/
theorem circular_through_array (hforce : d.force = true) : ∃ r, ((e₀.load d).calculate false).1 = .completed r ∧
    ∀ p ∈ e.calculation.plan.cycles, r.values[p]? ≠ some (.error .cycle) →
      ∃ q range, e.config.arrayRanges[q]? = some range ∧ e.index.OnOneCycle ∅ p q := by
  have hloaded := (reached_load h hd hbooks hregistry).plain.2
  have hsame := sameFormulas_load h hd hbooks hregistry
  have hranges : (e₀.load d).config.arrayRanges = ∅ := Config.arrayRanges_load hd
  obtain ⟨host, hcalculate⟩ := calculate_completed hloaded
  refine ⟨(e₀.load d).report, by rw [hcalculate], fun p hp hvalue => ?_⟩
  have hcycle := (h.plain.2.mem_cycles.1 hp).2
  refine exists_array_of_onCycle h.plain.2 hloaded hsame hranges hcycle fun hcycle' => hvalue ?_
  obtain ⟨q, ⟨⟨x, -, hx, -⟩, -⟩, -⟩ := TransGen.head'_iff.1 hcycle'
  exact values_of_mem_cycles hloaded (hloaded.mem_cycles.2 ⟨(fresh_load hd hforce).dirty p x hx, hcycle'⟩)

/-- An engine that knows of no arrays and calculates everything gives what its workbooks give when they are loaded
anew. -/
theorem calculate_eq_load (hforce : d.force = true) (hoptions : e₀.options = e.options) (hfresh : e.Fresh) :
    ∃ r r', (e.calculate false).1 = .completed r ∧ ((e₀.load d).calculate false).1 = .completed r' ∧
      r'.values = r.values ∧ r'.arrayRanges = r.arrayRanges ∧ r'.arrayValues = r.arrayValues := by
  have hloaded := (reached_load h hd hbooks hregistry).plain.2
  have hbooks' : (e₀.load d).config.books = e.config.books := (Config.books_load hd.toOwn).trans hbooks
  have hlike := like_calculation h.plain.2 hloaded (sameFormulas_load h hd hbooks hregistry) hfresh
    (fresh_load hd hforce) hbooks' hoptions
  obtain ⟨host, hcalculate⟩ := calculate_completed h.plain.2
  obtain ⟨host', hcalculate'⟩ := calculate_completed hloaded
  exact ⟨e.report, (e₀.load d).report, by rw [hcalculate], by rw [hcalculate'], hlike.report⟩

end Loaded

end Engine

end Spreadsheet
