import Spreadsheet.Proofs.Engine.Repair
import Spreadsheet.Proofs.Engine.Upkeep

/-! A calculation takes everything off a cell that holds a value, as long as it calculates the anchors of all that lies
there; and formulas that refer to the cell get its value. -/

namespace Spreadsheet

open Std Dependency Formula Relation

/-- The place is exposed, and what is recorded for a cell, if anything, is the given value. -/
def Pass.Mirrors (s : Pass) (x p : Place) (v : Value) : Prop := s.Exposes ∅ x ∧ ∀ w, s.results[p]? = some w → w = v

lemma Pass.Mirrors.invalidate {s : Pass} {x p q : Place} {v : Value} (h : s.Mirrors x p v) (hq : x ≠ q) :
    (s.invalidate q).Mirrors x p v := by
  refine ⟨h.1.invalidate hq, fun w hw => h.2 w ?_⟩
  unfold Pass.invalidate at hw
  split at hw
  · exact hw
  · rw [ExtTreeMap.getElem?_erase, Option.ite_none_left_eq_some] at hw
    exact hw.2

/-- The place is exposed but for arrays from before, and a cell has no array. -/
structure Pass.Reduced (s : Pass) (old : PlaceMap Range) (x p : Place) : Prop where
  exposes : s.Exposes old x
  anchor : s.anchors[p]? = none
  cycle : p ∉ s.cycles
  result : ∀ w, s.results[p]? = some w → w.NotArray

/-- The entry of a formula that is nothing but a reference to a cell. -/
structure Dependency.Entry.Mirror (e : Entry) (p x : Place) : Prop where
  node : e.node.IsCell p x
  refers : e.Refers x
  reads : ∀ r ∈ e.references, ∀ s : Region, r.overlaps s = true → s.contains x = true

namespace Calculation

open Eval Evaluator Interpreter

variable {c : Calculation} {d : Changes} {x p q : Place} {v : Scalar} {e f : Entry} {old : PlaceMap Range}
  {host : Host} {cursor : Cursor} {i : Interpreter}

/-- A cell without a formula holds a value, and the anchors of all arrays that lay over it are calculated. -/
structure Exposing (c : Calculation) (d : Changes) (x : Place) (v : Scalar) : Prop where
  plan : c.plan = Plan.make c.index c.config.features d
  value : c.config.books.value? x = some v
  full : v ≠ .empty
  entry : c.index.cell? x = none
  planned : ∀ a, c.config.Over a x → a ∈ c.plan.cells
  output : ∀ p e, c.index.cell? p = some e → e.output = c.config.output p
  excluded : d.excluded = c.config.changes.excluded

namespace Exposing

lemma ne (h : c.Exposing d x v) (he : c.index.cell? p = some e) : x ≠ p := by
  rintro rfl
  rw [h.entry] at he
  cases he

lemma occupied (h : c.Exposing d x v) : c.config.books.Occupied x := Books.occupied_of_value? h.value h.full

lemma hasSheet (h : c.Exposing d x v) : (c.snapshot.books.sheet? x.book x.sheet).isSome := by
  rw [← Books.isSome_value?, show c.snapshot.books.value? x = some v from h.value, Option.isSome_some]

lemma stored (h : c.Exposing d x v) : c.snapshot.stored x = .ofScalar v := by
  rw [Evaluator.ofScalar_stored, show c.snapshot.books.value? x = some v from h.value, Option.getD_some]

lemma start (h : c.Exposing d x v) : c.start.Exposes c.config.arrayRanges x := by
  have hnone : ∀ l : List Place, (∀ p ∈ l, ∃ e, c.index.cell? p = some e) → x ∉ l := by
    intro l hl hx
    obtain ⟨e, he⟩ := hl x hx
    exact h.ne he rfl
  have hcells : x ∉ c.plan.cells := hnone _ fun p hp => by
    rw [h.plan] at hp
    exact Plan.exists_entry hp
  have hcycles : x ∉ c.plan.cycles := hnone _ fun p hp => by
    rw [h.plan] at hp
    exact (dirty_cell (Plan.mem_cycles.1 hp).1).2
  constructor
  case result => rw [results_start, if_neg hcycles]
  case cycle => rwa [mem_cycles_start]
  case clean => rwa [mem_dirty_start]
  case spilled =>
    intro w hw
    rw [(sameArrays_start c).spilled, spilled_seededPass] at hw
    obtain ⟨⟨a, r, hr, hx⟩, u, -, rfl⟩ := hw
    exact ⟨⟨u, rfl⟩, a, over_start.2 ⟨r, hr, hx⟩⟩
  case lying =>
    intro a r hr hx
    rw [anchors_start] at hr
    exact ⟨(mem_dirty_start c).2 (h.planned a ⟨r, hr, hx⟩), hr⟩

lemma admits (h : c.Exposing d x v) (old : PlaceMap Range) : Admits c.snapshot (·.Exposes old x) fun _ _ => True :=
  admits_of_store fun _ _ _ _ he ht => ht.store h.occupied (h.ne he)

lemma exposes_firstRound (h : c.Exposing d x v) (hcurrent : c.isCurrent (c.firstRound host cursor) = true) :
    (c.firstRound host cursor).session.pass.Exposes ∅ x := by
  obtain ⟨hfirst, -⟩ := firstRound_upholds (upholds_of_admits (h.admits _) (lenient_true _)) h.plan h.start
  refine hfirst.clear fun a _ ha => ?_
  simpa using (firstRound_done h.plan hcurrent a ha).1

lemma exposes_reopened (h : c.Exposing d x v) (hcurrent : c.isCurrent (c.firstRound host cursor) = true) :
    ((c.spillReaders (c.firstRound host cursor).session.pass).foldl Pass.invalidate
      (c.firstRound host cursor).session.pass).Exposes ∅ x := by
  refine List.foldlRecOn (motive := fun s : Pass => s.Exposes ∅ x) _ _ (h.exposes_firstRound hcurrent)
    fun s hs p hp => ?_
  obtain ⟨e, he⟩ := exists_entry_of_mem_spillReaders hp
  exact hs.invalidate (h.ne he)

lemma exposes_endPass (h : c.Exposing d x v) (hcurrent : c.isCurrent (c.firstRound host cursor) = true) :
    (c.endPass host cursor).Exposes ∅ x := by
  obtain ⟨hsecond, hidle⟩ := secondRound_upholds (upholds_of_admits (h.admits ∅) (lenient_true _))
    h.plan h.excluded (idle_firstRound h.plan) (h.exposes_reopened hcurrent)
  exact evaluateOthers_spec (h.admits ∅) hidle hsecond

lemma values_eq_none {r : Report} (h : c.Exposing d x v) (hrun : (c.run host cursor).1 = .completed r) :
    r.values[x]? = none := by
  obtain ⟨-, -, rfl⟩ := report_of_completed hrun
  rw [Option.eq_none_iff_forall_ne_some]
  intro w hw
  obtain ⟨f, hf⟩ := exists_entry_of_values h.plan hw
  exact h.ne hf rfl

end Exposing

/-! Formulas that refer to the cell. -/

lemma admits_mirrors (h : c.Exposing d x v) (hf : c.index.cell? p = some f) (hn : f.node.IsCell p x) :
    Admits c.snapshot (·.Mirrors x p (.ofScalar v)) fun q w => q = p → w = .ofScalar v where
  value q e he levels scope hplace _ hvalue := by
    by_cases hq : q = p
    · subst hq
      obtain rfl := Option.some.inj (hf.symm.trans he)
      intro t ht
      rw [exec_value_exposed (hplace ▸ hn) h.hasSheet levels ht.1, h.stored]
      refine ⟨rfl, ht, ?_⟩
      rintro w ⟨⟩ -
      rfl
    · exact hvalue.mono fun _ _ heq => absurd heq hq
  store q e he _ t w ht hw := by
    refine ⟨ht.1.store h.occupied (h.ne he), fun u hu => ?_⟩
    by_cases hq : p = q
    · subst hq
      rw [hw rfl, Pass.store_of_not_array (Value.isItem_ofScalar v).notArray, Pass.results_record, if_pos rfl] at hu
      exact (Option.some.inj hu).symm
    · rw [Pass.results_store_of_ne hq] at hu
      exact ht.2 u hu

lemma evaluateCell_mirror (h : c.Exposing d x v) (hf : c.index.cell? p = some f) (hn : f.node.IsCell p x)
    (hdue : Due (·.Mirrors x p (.ofScalar v)) p) (hidle : i.Idle) (hJ : i.session.pass.Mirrors x p (.ofScalar v)) :
    (c.evaluateCell i p).session.pass.Mirrors x p (.ofScalar v) ∧ (c.evaluateCell i p).Idle := by
  have hcalculate : ∀ (scope : Scope) (t : Session), scope.cells = ∅ → t.pass = i.session.pass →
      exec (calculate c.snapshot c.snapshot.evaluator p) scope t = (.ok (.ofScalar v),
        { t with pass := i.session.pass.store c.config.books c.index p (.ofScalar v) }) := by
    intro scope t hcells ht
    have hp : p ∉ scope.cells := by simp [hcells]
    have he : c.snapshot.formulas.cell? p = some f := hf
    have hx := exec_calculate_exposed he hn h.hasSheet hp c.snapshot.depth (t := t) (ht ▸ hJ.1)
    rw [h.stored, ht] at hx
    exact hx
  unfold evaluateCell Interpreter.evaluateCell
  simp only [show c.snapshot.index = some c.index from rfl, Index.contains_cells hf, Bool.not_true, Bool.false_eq_true,
    if_false]
  rcases hrun : i.run c.waits {} _ with ⟨o, j⟩
  have hspec : ∃ w, o = some w ∧ j.scope = i.scope ∧ j.session.pass.Mirrors x p (.ofScalar v) ∧
      j.session.pass.results.contains p = true := by
    cases hw : i.session.pass.results[p]? with
    | some w =>
      obtain ⟨ho, hscope, hpass⟩ := run_of_exec (v := w) (u := i.session.pass) hrun fun t ht =>
        ⟨t, by rw [exec_get_bind, ht, hw]; rfl, ht, rfl⟩
      refine ⟨_, ho, hscope, hpass ▸ hJ, ?_⟩
      rw [hpass, ExtTreeMap.contains_eq_isSome_getElem?, hw, Option.isSome_some]
    | none =>
      obtain ⟨ho, hscope, hpass⟩ := run_of_exec (v := .ofScalar v)
        (u := i.session.pass.store c.config.books c.index p (.ofScalar v)) hrun fun t ht =>
          ⟨{ t with pass := i.session.pass.store c.config.books c.index p (.ofScalar v) },
            by rw [exec_get_bind, ht, hw]; exact hcalculate _ t hidle.cells ht, rfl, rfl⟩
      refine ⟨_, ho, hscope, hpass ▸ (admits_mirrors h hf hn).store p f hf hdue _ _ hJ fun _ => rfl, ?_⟩
      obtain ⟨w, -, hresults⟩ := i.session.pass.results_store c.config.books c.index p (.ofScalar v)
      rw [hpass, ExtTreeMap.contains_eq_isSome_getElem?, hresults, if_pos rfl, Option.isSome_some]
  obtain ⟨w, rfl, hscope, hpass, hcontains⟩ := hspec
  simp only [hcontains, if_true]
  exact ⟨hpass, hscope ▸ hidle.cells, hscope ▸ hidle.names⟩

lemma upholds_mirrors (h : c.Exposing d x v) (hf : c.index.cell? p = some f) (hn : f.node.IsCell p x) :
    c.Upholds (·.Mirrors x p (.ofScalar v)) := by
  intro q e he hdue i hidle hJ
  by_cases hq : q = p
  · subst hq
    exact evaluateCell_mirror h hf hn hdue hidle hJ
  · have hlenient : Lenient (fun s => s.Mirrors x p (.ofScalar v)) (fun q w => q = p → w = .ofScalar v) q :=
      ⟨fun _ _ heq => absurd heq hq, fun _ _ heq => absurd heq hq, fun _ _ _ _ heq => absurd heq hq⟩
    obtain ⟨hpass, hidle, -⟩ := evaluateCell_spec (admits_mirrors h hf hn) hlenient he hdue hidle hJ
    exact ⟨hpass, hidle⟩

lemma admits_reduced (h : c.Exposing d x v) (hf : c.index.cell? p = some f) (hn : f.node.IsCell p x) :
    Admits c.snapshot (·.Reduced old x p) fun q w => q = p → w.NotArray where
  value q e he levels scope hplace hcell hvalue := by
    by_cases hq : q = p
    · subst hq
      obtain rfl := Option.some.inj (hf.symm.trans he)
      have hread := alike_readCell_exposed (fun _ (ht : Pass.Reduced _ old x q) => ht.exposes) hcell
      refine (hread.congr ?_).mono fun w hw _ => hw
      exact exec_value_isCell (hplace ▸ hn) h.hasSheet levels
    · exact hvalue.mono fun _ _ heq => absurd heq hq
  store q e he _ t w ht hw := by
    have hexposes : (t.store c.config.books c.index q w).Exposes old x := ht.exposes.store h.occupied (h.ne he)
    have hcycle : p ∉ (t.store c.config.books c.index q w).cycles := by
      rw [Pass.cycles_store]
      exact ht.cycle
    by_cases hq : p = q
    · subst hq
      refine ⟨hexposes, ?_, hcycle, fun u hu => ?_⟩
      · rw [Option.eq_none_iff_forall_ne_some]
        intro r hr
        obtain ⟨g, hg, -⟩ := Pass.store_of_some hr
        exact hw rfl g hg
      · rw [Pass.store_of_not_array (hw rfl), Pass.results_record, if_pos rfl] at hu
        exact Option.some.inj hu ▸ hw rfl
    · refine ⟨hexposes, ?_, hcycle, fun u hu => ?_⟩
      · rw [Pass.anchors_store hq, ht.anchor]
      · rw [Pass.results_store_of_ne hq] at hu
        exact ht.result u hu

lemma lenient_reduced (q : Place) : Lenient (·.Reduced old x p) (fun q w => q = p → w.NotArray) q := by
  refine ⟨fun w hw _ => hw, fun w hw hq => (hw hq).settled, fun s w hs hw hq => ?_⟩
  subst hq
  exact hs.result w hw

/-- Only arrays that lay over the cell before lead back to it from its readers. -/
lemma over_of_reads (h : c.Exposing d x v) (hf : c.index.cell? p = some f) (hm : f.Mirror p x)
    (hr : c.index.Reads p q) : c.config.Over q x := by
  obtain ⟨e, g, he, hg, r, hr, ho⟩ := hr
  obtain rfl := Option.some.inj (hf.symm.trans he)
  have hx := hm.reads r hr _ ho
  rw [h.output q g hg, Config.output] at hx
  split at hx
  · rename_i t ht
    exact ⟨t, ht, hx⟩
  · obtain rfl := Place.contains_region.1 hx
    exact absurd rfl (h.ne hg)

lemma acyclic_of_mirror (h : c.Exposing d x v) (hf : c.index.cell? p = some f) (hm : f.Mirror p x) :
    ¬ c.index.OnCycle d.excluded p := by
  intro hcycle
  obtain ⟨q, hpq, hqp⟩ := (TransGen.head'_iff).1 hcycle
  have hq := h.planned q (over_of_reads h hf hm hpq.1)
  rw [h.plan, Plan.mem_cells] at hq
  exact hq.2 (TransGen.tail' hqp hpq)

lemma reduced_firstRound (h : c.Exposing d x v) (hf : c.index.cell? p = some f) (hm : f.Mirror p x)
    (hp : c.config.arrayRanges[p]? = none) :
    (c.firstRound host cursor).session.pass.Reduced c.config.arrayRanges x p := by
  have hcycle : p ∉ c.plan.cycles := by
    rw [h.plan, Plan.mem_cycles]
    exact fun hc => acyclic_of_mirror h hf hm hc.2
  refine (firstRound_upholds (upholds_of_admits (admits_reduced h hf hm.node) lenient_reduced) h.plan
    ⟨h.start, ?_, ?_, ?_⟩).1
  · rw [anchors_start, hp]
  · rwa [mem_cycles_start]
  · rw [results_start, if_neg hcycle]
    rintro w ⟨⟩

/-- The array that lay over the cell is gone, so what refers to the cell is calculated once more. -/
lemma mem_spillReaders_of_mirror (h : c.Exposing d x v) (hf : c.index.cell? p = some f) (hm : f.Mirror p x)
    (hexcluded : p ∉ d.excluded) (hp : c.config.arrayRanges[p]? = none) (ha : c.config.Over q x)
    (hcurrent : c.isCurrent (c.firstRound host cursor) = true) :
    p ∈ c.spillReaders (c.firstRound host cursor).session.pass := by
  have hexcluded' : (c.moves (c.firstRound host cursor).session.pass).excluded = d.excluded := h.excluded.symm
  have huntouched := @untouched_firstRound c host cursor d h.plan
  have hstays : ¬ c.Moved (c.firstRound host cursor).session.pass p :=
    not_not.2 ((reduced_firstRound h hf hm hp).anchor.trans hp.symm)
  obtain ⟨r, hr, hrx⟩ := ha
  have hmoved : c.Moved (c.firstRound host cursor).session.pass q := fun heq =>
    (h.exposes_firstRound hcurrent).not_over q ⟨r, heq.trans hr, hrx⟩
  refine huntouched.mem_spillReaders (Plan.mem_cells.2 ⟨?_, hexcluded' ▸ acyclic_of_mirror h hf hm⟩) hstays hmoved
  obtain ⟨t, ht, hx⟩ := hm.refers
  refine closed_dirty.cell p f hf (hexcluded' ▸ hexcluded) (Or.inr (Or.inr ⟨q.area r, Or.inl ?_, t, ht, ?_⟩))
  · exact huntouched.mem_moves hmoved (Or.inr hr)
  · exact Region.overlaps_of_contains hx hrx

theorem mirrors_endPass (h : c.Exposing d x v) (hf : c.index.cell? p = some f) (hm : f.Mirror p x)
    (hexcluded : p ∉ d.excluded) (hp : c.config.arrayRanges[p]? = none ∨ ∀ a, ¬ c.config.Over a x)
    (hcurrent : c.isCurrent (c.firstRound host cursor) = true) :
    (c.endPass host cursor).Mirrors x p (.ofScalar v) := by
  have hupholds := upholds_mirrors h hf hm.node
  have hreopened : ((c.spillReaders (c.firstRound host cursor).session.pass).foldl Pass.invalidate
      (c.firstRound host cursor).session.pass).Mirrors x p (.ofScalar v) := by
    by_cases hover : ∃ a, c.config.Over a x
    · have hp := hp.resolve_right (not_forall_not.2 hover)
      obtain ⟨a, ha⟩ := hover
      refine ⟨h.exposes_reopened hcurrent, fun w hw => ?_⟩
      rw [Pass.results_foldl_invalidate fun _ => (reduced_firstRound h hf hm hp).cycle,
        if_pos (mem_spillReaders_of_mirror h hf hm hexcluded hp ha hcurrent)] at hw
      cases hw
    · have hstart : c.start.Mirrors x p (.ofScalar v) := by
        refine ⟨h.start.clear fun a ha => absurd ⟨a, over_start.1 ha⟩ hover, fun w hw => ?_⟩
        rw [results_start, h.plan, if_neg fun hc => acyclic_of_mirror h hf hm (Plan.mem_cycles.1 hc).2] at hw
        cases hw
      refine List.foldlRecOn (motive := fun s : Pass => s.Mirrors x p (.ofScalar v)) _ _
        (firstRound_upholds hupholds h.plan hstart).1 fun s hs q hq => ?_
      obtain ⟨e, he⟩ := exists_entry_of_mem_spillReaders hq
      exact hs.invalidate (h.ne he)
  obtain ⟨hsecond, hidle⟩ := secondRound_upholds hupholds h.plan h.excluded (idle_firstRound h.plan) hreopened
  exact evaluateOthers_spec (admits_mirrors h hf hm.node) hidle hsecond

end Calculation

end Spreadsheet
