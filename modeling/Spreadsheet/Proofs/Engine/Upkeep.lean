import Spreadsheet.Proofs.Engine.Calculation
import Spreadsheet.Proofs.Engine.Report
import Spreadsheet.Proofs.Evaluation.Exposed

/-! What is kept in every calculation, whatever its formulas call and whether or not it waits for answers. -/

namespace Spreadsheet

open Std Dependency Formula Eval

/-- The cells that are still to be calculated have no results yet, and are among those of a list. -/
def Pass.Waits (s : Pass) (l : List Place) : Prop := ∀ p ∈ s.dirty, p ∈ l ∧ s.results[p]? = none

lemma Pass.Waits.store {s : Pass} {l : List Place} (h : s.Waits l) (books : Books) (index : Index) (a : Place)
    (v : Value) :
    (s.store books index a v).Waits l := by
  intro p hp
  obtain ⟨hne, hp⟩ := Pass.mem_dirty_store.1 hp
  rw [Pass.results_store_of_ne hne]
  exact h p hp

lemma Pass.due_waits {l : List Place} {p : Place} (h : p ∈ l) : Due (·.Waits l) p := by
  refine ⟨{ dirty := (∅ : PlaceSet).insert p }, fun q hq => ?_, by simp⟩
  obtain rfl : p = q := by simpa using hq
  exact ⟨h, by simp⟩

lemma Dependency.Index.contains_cells {i : Index} {p : Place} {e : Entry} (h : i.cell? p = some e) :
    i.cells.contains p = true := by
  rw [ExtTreeMap.contains_eq_isSome_getElem?]
  exact Option.isSome_iff_exists.2 ⟨e, h⟩

namespace Calculation

open Eval Evaluator Interpreter

variable {c : Calculation} {J : Pass → Prop} {Fine : Place → Value → Prop} {i : Interpreter} {p q : Place} {e : Entry}
  {l : List Place}

/-- Whatever the evaluation of a cell ends with may be stored. -/
structure Lenient (J : Pass → Prop) (Fine : Place → Value → Prop) (p : Place) : Prop where
  single : ∀ v : Value, v.NotArray → Fine p v
  settled : ∀ v, Fine p v → Fine p v.settled
  result : ∀ s v, J s → s.results[p]? = some v → Fine p v

lemma lenient_true (J : Pass → Prop) (p : Place) : Lenient J (fun _ _ => True) p :=
  ⟨fun _ _ => trivial, fun _ _ => trivial, fun _ _ _ _ => trivial⟩

lemma evaluateCell_spec (h : Admits c.snapshot J Fine) (hp : Lenient J Fine p) (he : c.index.cell? p = some e)
    (hdue : Due J p) (hidle : i.Idle) (hJ : J i.session.pass) : J (c.evaluateCell i p).session.pass ∧ (c.evaluateCell i p).Idle ∧
      ∃ w, (c.evaluateCell i p).session.pass.results[p]? = some w := by
  have hstore : ∀ (s : Pass) v, J s → Fine p v → J (s.store c.config.books c.index p v) ∧
      ∃ w, (s.store c.config.books c.index p v).results[p]? = some w := by
    intro s v hs hv
    obtain ⟨w, -, hw⟩ := s.results_store c.config.books c.index p v
    exact ⟨h.store p e he hdue s v hs hv, w, (hw p).trans (if_pos rfl)⟩
  have hcalculation : Fine p (.error .calculation) := hp.single _ nofun
  have hcalculate : ∀ scope : Scope, scope.cells = ∅ → scope.names = ∅ → Alike (fun t => J t.pass) (Fine p) scope
      (calculate c.snapshot c.snapshot.evaluator p) (calculate c.snapshot c.snapshot.evaluator p) := fun _ hcells hnames =>
    h.alike_calculate hcells hnames hdue (fun v hv => hp.single v hv.notArray) hp.result
  unfold evaluateCell Interpreter.evaluateCell
  simp only [show c.snapshot.index = some c.index from rfl, Index.contains_cells he, Bool.not_true, Bool.false_eq_true,
    if_false]
  rcases hrun : i.run c.waits {} _ with ⟨o, j⟩
  have hspec := run_spec (R := Fine p) hrun (alike_get fun s hs => by
    cases hw : s.pass.results[p]? with
    | some w => exact alike_pure (hp.result s.pass w hs hw)
    | none => exact hcalculate _ hidle.cells hidle.names) hp.settled hcalculation hJ
  -- a run that breaks off is recorded as `#CALC!`, and any other with its value, if it has not been stored on the way
  cases o with
  | none =>
    obtain ⟨hstored, hresult⟩ := hstore j.session.pass _ hspec.1 hcalculation
    exact ⟨hstored, ⟨rfl, rfl⟩, hresult⟩
  | some v =>
    obtain ⟨hv, hscope⟩ := hspec.2 v rfl
    have hidle : j.Idle := ⟨hscope ▸ hidle.cells, hscope ▸ hidle.names⟩
    dsimp only
    cases hcontains : j.session.pass.results.contains p with
    | true =>
      rw [ExtTreeMap.contains_eq_isSome_getElem?, Option.isSome_iff_exists] at hcontains
      exact ⟨hspec.1, hidle, hcontains⟩
    | false =>
      obtain ⟨hstored, hresult⟩ := hstore j.session.pass v hspec.1 hv
      exact ⟨hstored, ⟨hidle.cells, hidle.names⟩, hresult⟩

lemma evaluateCells_spec (h : ∀ p ∈ l, ∀ i : Interpreter, i.Idle → J i.session.pass →
      J (c.evaluateCell i p).session.pass ∧ (c.evaluateCell i p).Idle) (hidle : i.Idle) (hJ : J i.session.pass) :
    J (c.evaluateCells i l).session.pass ∧ (c.evaluateCells i l).Idle := by
  induction l generalizing i with
  | nil => exact ⟨hJ, hidle⟩
  | cons p l ih =>
    obtain ⟨hp, hl⟩ := List.forall_mem_cons.1 h
    obtain ⟨hpass, hidle⟩ := hp i hidle hJ
    rw [evaluateCells]
    split
    · exact ih hl hidle hpass
    · exact ⟨hpass, hidle⟩

lemma evaluateCells_done (hl : ∀ p ∈ l, ∃ e, c.index.cell? p = some e) (hidle : i.Idle) (hw : i.session.pass.Waits l)
    (hcurrent : c.isCurrent (c.evaluateCells i l) = true) : (c.evaluateCells i l).session.pass.Waits [] := by
  induction l generalizing i with
  | nil => exact hw
  | cons p l ih =>
    obtain ⟨⟨e, he⟩, hl⟩ := List.forall_mem_cons.1 hl
    obtain ⟨hw, hidle, w, hp⟩ := evaluateCell_spec (admits_of_store fun t q _ v _ ht => ht.store _ _ q v)
      (lenient_true (·.Waits (p :: l)) p) he (Pass.due_waits List.mem_cons_self) hidle hw
    rw [evaluateCells] at hcurrent ⊢
    split
    · rename_i hnext
      rw [if_pos hnext] at hcurrent
      refine ih hl hidle (fun q hq => ?_) hcurrent
      obtain ⟨hmem, hq⟩ := hw q hq
      refine ⟨(List.mem_cons.1 hmem).resolve_left ?_, hq⟩
      rintro rfl
      rw [hp] at hq
      cases hq
    · rename_i hnext
      rw [if_neg hnext] at hcurrent
      exact absurd hcurrent hnext

/-! The parts of a calculation. -/

/-- The calculation of every formula cell that may be due keeps the property. -/
def Upholds (c : Calculation) (J : Pass → Prop) : Prop :=
  ∀ p e, c.index.cell? p = some e → Due J p → ∀ i : Interpreter, i.Idle → J i.session.pass →
    J (c.evaluateCell i p).session.pass ∧ (c.evaluateCell i p).Idle

lemma upholds_of_admits (h : Admits c.snapshot J Fine) (hl : ∀ p, Lenient J Fine p) : c.Upholds J := by
  intro p e he hdue i hidle hJ
  obtain ⟨hpass, hidle, -⟩ := evaluateCell_spec h (hl p) he hdue hidle hJ
  exact ⟨hpass, hidle⟩

variable {host : Host} {cursor : Cursor} {report : Report} {d : Changes}

lemma firstRound_upholds (h : c.Upholds J) (hplan : c.plan = Plan.make c.index c.config.features d) (hJ : J c.start) :
    J (c.firstRound host cursor).session.pass ∧ (c.firstRound host cursor).Idle := by
  refine evaluateCells_spec (fun p hp => ?_) ⟨rfl, rfl⟩ hJ
  have hdue : Due J p := ⟨c.start, hJ, (mem_dirty_start c).2 hp⟩
  rw [hplan] at hp
  obtain ⟨e, he⟩ := Plan.exists_entry hp
  exact h p e he hdue

lemma idle_firstRound (hplan : c.plan = Plan.make c.index c.config.features d) : (c.firstRound host cursor).Idle :=
  (firstRound_upholds (upholds_of_admits (admits_of_store (J := fun _ => True) fun _ _ _ _ _ h => h) (lenient_true _))
    hplan trivial).2

lemma exists_entry_of_mem_spillReaders {s : Pass} (hp : p ∈ c.spillReaders s) : ∃ e, c.index.cell? p = some e :=
  Plan.exists_entry ((sublist_spillReaders c s).subset hp)

lemma cycles_firstRound (hplan : c.plan = Plan.make c.index c.config.features d) :
    p ∈ (c.firstRound host cursor).session.pass.cycles ↔ p ∈ c.plan.cycles := by
  have hcycles : (c.firstRound host cursor).session.pass.cycles = c.start.cycles :=
    (firstRound_upholds (J := (·.cycles = c.start.cycles)) (upholds_of_admits
      (admits_of_store fun _ _ _ _ _ ht => Pass.cycles_store.trans ht) (lenient_true _)) hplan rfl).1
  rw [hcycles, mem_cycles_start]

lemma mem_dirty_reopened (hplan : c.plan = Plan.make c.index c.config.features d)
    (hexcluded : d.excluded = c.config.changes.excluded)
    (hp : p ∈ c.spillReaders (c.firstRound host cursor).session.pass) :
    p ∈ ((c.spillReaders (c.firstRound host cursor).session.pass).foldl Pass.invalidate
      (c.firstRound host cursor).session.pass).dirty := by
  refine Pass.mem_dirty_foldl_invalidate_of_mem hp fun hcycle => ?_
  rw [cycles_firstRound hplan] at hcycle
  exact acyclic_spillReaders hplan hexcluded hp hcycle

lemma secondRound_upholds (h : c.Upholds J) (hplan : c.plan = Plan.make c.index c.config.features d)
    (hexcluded : d.excluded = c.config.changes.excluded) (hidle : (c.firstRound host cursor).Idle)
    (hJ : J ((c.spillReaders (c.firstRound host cursor).session.pass).foldl Pass.invalidate
      (c.firstRound host cursor).session.pass)) :
    J (c.secondRound host cursor).session.pass ∧ (c.secondRound host cursor).Idle := by
  refine evaluateCells_spec (fun p hp => ?_) ⟨hidle.cells, hidle.names⟩ hJ
  obtain ⟨e, he⟩ := exists_entry_of_mem_spillReaders hp
  exact h p e he ⟨_, hJ, mem_dirty_reopened hplan hexcluded hp⟩

lemma firstRound_done (hplan : c.plan = Plan.make c.index c.config.features d)
    (hcurrent : c.isCurrent (c.firstRound host cursor) = true) : (c.firstRound host cursor).session.pass.Waits [] := by
  refine evaluateCells_done (fun p hp => ?_) ⟨rfl, rfl⟩ (fun p hp => ?_) hcurrent
  · rw [hplan] at hp
    exact Plan.exists_entry hp
  · have hp : p ∈ c.plan.cells := (mem_dirty_start c).1 hp
    refine ⟨hp, (results_start c p).trans (if_neg fun hc => ?_)⟩
    rw [hplan] at hp hc
    exact Plan.not_mem_cycles hp hc

lemma evaluateOther_spec (h : Admits c.snapshot J Fine) (hidle : i.Idle) (hJ : J i.session.pass) (x : Entry) :
    J (c.evaluateOther i x).2.session.pass ∧ (c.evaluateOther i x).2.Idle := by
  unfold evaluateOther
  dsimp only
  rcases hrun : (i.moveTo _).evaluate c.snapshot x.node c.waits with ⟨o, j⟩
  obtain ⟨hpass, hnext⟩ := evaluate_spec hrun h ⟨hidle.cells, hidle.names⟩ hJ
  cases o with
  | none => exact ⟨hpass, rfl, rfl⟩
  | some v => exact ⟨hpass, hnext v rfl⟩

lemma evaluateOthers_spec (h : Admits c.snapshot J Fine) (hidle : i.Idle) (hJ : J i.session.pass) :
    J (c.evaluateOthers i).2.session.pass := by
  unfold evaluateOthers
  refine (List.foldlRecOn (motive := fun y : ItemMap Value × Interpreter => J y.2.session.pass ∧ y.2.Idle) _ _
    ⟨hJ, hidle⟩ ?_).1
  rintro ⟨values, j⟩ ⟨hpass, hidle⟩ k -
  dsimp only at hpass hidle ⊢
  cases c.index.other? k with
  | none => exact ⟨hpass, hidle⟩
  | some x => exact evaluateOther_spec h hidle hpass x

/-- The pass that a completed calculation reports about. -/
def endPass (c : Calculation) (host : Host) (cursor : Cursor) : Pass :=
  (c.evaluateOthers (c.secondRound host cursor)).2.session.pass

lemma report_of_completed (h : (c.run host cursor).1 = .completed report) :
    c.isCurrent (c.firstRound host cursor) = true ∧ c.isCurrent (c.secondRound host cursor) = true ∧
      report = c.report (c.endPass host cursor) (c.spillReaders (c.firstRound host cursor).session.pass)
        (c.evaluateOthers (c.secondRound host cursor)).1 := by
  rw [run_eq] at h
  split at h
  · cases h
  · rename_i hfirst
    split at h
    · cases h
    · rename_i hsecond
      dsimp only at h
      split at h
      · cases h
      · exact ⟨by simpa using hfirst, by simpa using hsecond, (Outcome.completed.inj h).symm⟩

lemma exists_entry_of_values {s t : Pass} {others : ItemMap Value} {v : Scalar}
    (hplan : c.plan = Plan.make c.index c.config.features d)
    (hv : (c.report s (c.spillReaders t) others).values[p]? = some v) : ∃ e, c.index.cell? p = some e := by
  rcases (report_values.1 hv).1 with hp | hp
  · rw [hplan] at hp
    exact (dirty_cell (Plan.mem_cycles.1 hp).1).2
  · rcases mem_calculated.1 hp with hp | hp
    · rw [hplan] at hp
      exact Plan.exists_entry hp
    · exact exists_entry_of_mem_spillReaders hp

lemma idle_secondRound (hplan : c.plan = Plan.make c.index c.config.features d)
    (hexcluded : d.excluded = c.config.changes.excluded) : (c.secondRound host cursor).Idle :=
  (secondRound_upholds (J := fun _ => True) (upholds_of_admits (admits_of_store fun _ _ _ _ _ h => h) (lenient_true _))
    hplan hexcluded (idle_firstRound hplan) trivial).2

lemma secondRound_done (hplan : c.plan = Plan.make c.index c.config.features d)
    (hexcluded : d.excluded = c.config.changes.excluded) (hfirst : c.isCurrent (c.firstRound host cursor) = true)
    (hsecond : c.isCurrent (c.secondRound host cursor) = true) : (c.secondRound host cursor).session.pass.Waits [] := by
  have hidle := @idle_firstRound _ host cursor _ hplan
  refine evaluateCells_done (fun p hp => exists_entry_of_mem_spillReaders hp) ⟨hidle.cells, hidle.names⟩
    (fun p hp => ?_) hsecond
  have hagain : p ∈ c.spillReaders (c.firstRound host cursor).session.pass :=
    (Pass.mem_dirty_foldl_invalidate hp).resolve_right fun hp => nomatch (firstRound_done hplan hfirst p hp).1
  refine ⟨hagain, (Pass.results_foldl_invalidate fun _ hcycle => ?_).trans (if_pos hagain)⟩
  exact acyclic_spillReaders hplan hexcluded hagain ((cycles_firstRound hplan).1 hcycle)

lemma endPass_done (hplan : c.plan = Plan.make c.index c.config.features d)
    (hexcluded : d.excluded = c.config.changes.excluded) (hfirst : c.isCurrent (c.firstRound host cursor) = true)
    (hsecond : c.isCurrent (c.secondRound host cursor) = true) : (c.endPass host cursor).Waits [] :=
  evaluateOthers_spec (J := (·.Waits [])) (admits_of_store fun _ q _ v _ ht => ht.store _ _ q v)
    (idle_secondRound hplan hexcluded) (secondRound_done hplan hexcluded hfirst hsecond)

lemma endPass_of_reopened (h : Admits c.snapshot J Fine) (hl : ∀ p, Lenient J Fine p)
    (hplan : c.plan = Plan.make c.index c.config.features d) (hexcluded : d.excluded = c.config.changes.excluded)
    (hJ : J ((c.spillReaders (c.firstRound host cursor).session.pass).foldl Pass.invalidate
      (c.firstRound host cursor).session.pass)) : J (c.endPass host cursor) := by
  obtain ⟨hsecond, hidle⟩ := secondRound_upholds (upholds_of_admits h hl) hplan hexcluded (idle_firstRound hplan) hJ
  exact evaluateOthers_spec h hidle hsecond

/-- What a whole calculation keeps. -/
lemma endPass_spec (h : Admits c.snapshot J Fine) (hl : ∀ p, Lenient J Fine p)
    (hplan : c.plan = Plan.make c.index c.config.features d) (hexcluded : d.excluded = c.config.changes.excluded)
    (hstart : J c.start) (hinvalidate : ∀ s, ∀ p ∈ c.spillReaders (c.firstRound host cursor).session.pass,
      J s → J (s.invalidate p)) : J (c.endPass host cursor) := by
  have hfirst : J (c.firstRound host cursor).session.pass := (firstRound_upholds (upholds_of_admits h hl) hplan hstart).1
  exact endPass_of_reopened h hl hplan hexcluded
    (List.foldlRecOn (motive := J) _ _ hfirst fun s hs p hp => hinvalidate s p hp hs)

/-! Arrays that do not count as changed. -/

lemma admits_untouched (c : Calculation) : Admits c.snapshot c.Untouched fun _ _ => True :=
  admits_of_store fun _ p _ v _ ht => Untouched.store ht p v

lemma untouched_firstRound (hplan : c.plan = Plan.make c.index c.config.features d) :
    c.Untouched (c.firstRound host cursor).session.pass :=
  (firstRound_upholds (upholds_of_admits c.admits_untouched (lenient_true _)) hplan c.untouched_start).1

lemma untouched_endPass (hplan : c.plan = Plan.make c.index c.config.features d)
    (hexcluded : d.excluded = c.config.changes.excluded) : c.Untouched (c.endPass host cursor) := by
  refine endPass_spec c.admits_untouched (lenient_true _) hplan hexcluded c.untouched_start fun s q _ hs p hp => ?_
  rw [(s.sameArrays_invalidate q).changedAnchors] at hp
  rw [(s.sameArrays_invalidate q).anchors]
  exact hs p hp

end Calculation

end Spreadsheet
