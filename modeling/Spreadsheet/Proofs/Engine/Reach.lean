import Spreadsheet.Proofs.Engine.Readback

/-! What a calculation reaches. It gives values to the cells that it goes through and to no others, and it evaluates
formulas outside the cells over the arrays that it leaves behind. An array that moves reaches everything that reads what
it covered before; but of what reads its new cells only the formula cells. -/

namespace Spreadsheet

open Std Dependency Formula Eval

namespace Pass

variable {s t : Pass} {books : Books} {index : Index} {p : Place} {l : List Place}

/-- Between two passes only cells of a list are calculated, and no others are left to be. -/
structure Confined (s : Pass) (l : List Place) (t : Pass) : Prop where
  dirty : ∀ p ∈ s.dirty, p ∈ l
  anchors : ∀ p, p ∉ l → s.anchors[p]? = t.anchors[p]?
  changed : ∀ p, p ∉ l → (p ∈ s.changedAnchors ↔ p ∈ t.changedAnchors)
  results : ∀ p, p ∉ l → s.results[p]? = t.results[p]?

namespace Confined

lemma trans {l' : List Place} {u : Pass} (h : s.Confined l t) (h' : t.Confined l' u) : s.Confined (l' ++ l) u := by
  have hboth : ∀ p, p ∉ l' ++ l → p ∉ l' ∧ p ∉ l := fun p hp => by rwa [List.mem_append, not_or] at hp
  refine ⟨fun p hp => List.mem_append_right _ (h.dirty p hp), fun p hp => ?_, fun p hp => ?_, fun p hp => ?_⟩
  · rw [h.anchors p (hboth p hp).2, h'.anchors p (hboth p hp).1]
  · rw [h.changed p (hboth p hp).2, h'.changed p (hboth p hp).1]
  · rw [h.results p (hboth p hp).2, h'.results p (hboth p hp).1]

lemma store (h : s.Confined l t) (hp : p ∈ l) (v : Value) : (s.store books index p v).Confined l t := by
  have hne : ∀ q, q ∉ l → q ≠ p := fun q hq => (ne_of_mem_of_not_mem hp hq).symm
  refine ⟨fun q hq => h.dirty q (mem_dirty_store.1 hq).2, fun q hq => ?_, fun q hq => ?_, fun q hq => ?_⟩
  · rw [anchors_store (hne q hq), h.anchors q hq]
  · rw [mem_changedAnchors_store, h.changed q hq]
    exact or_iff_right fun hq' => hne q hq hq'.1
  · rw [results_store_of_ne (hne q hq), h.results q hq]

end Confined

/-- The cells of a list have results, or get them yet. -/
def Covers (l : List Place) (s : Pass) : Prop := ∀ p ∈ l, p ∈ s.dirty ∨ ∃ v, s.results[p]? = some v

namespace Covers

lemma store (h : s.Covers l) (p : Place) (v : Value) : (s.store books index p v).Covers l := by
  obtain ⟨w, -, hw⟩ := s.results_store books index p v
  intro q hq
  by_cases hqp : q = p
  · exact Or.inr ⟨w, (hw q).trans (if_pos hqp)⟩
  · refine (h q hq).imp (fun hd => mem_dirty_store.2 ⟨hqp, hd⟩) fun ⟨u, hu⟩ => ⟨u, ?_⟩
    rw [hw, if_neg hqp, hu]

lemma invalidate (h : s.Covers l) (p : Place) : (s.invalidate p).Covers l := by
  unfold Pass.invalidate
  split
  · exact h
  · intro q hq
    by_cases hqp : q = p
    · subst hqp
      exact Or.inl ExtTreeSet.mem_insert_self
    · refine (h q hq).imp (fun hd => ExtTreeSet.mem_insert.2 (Or.inr hd)) fun ⟨u, hu⟩ => ⟨u, ?_⟩
      rw [ExtTreeMap.getElem?_erase, if_neg (by simpa using Ne.symm hqp), hu]

end Covers

end Pass

namespace Calculation

open Evaluator

variable {c : Calculation} {d : Changes} {s t : Pass} {a p : Place} {k : ItemKey} {host : Host} {cursor : Cursor}
  {l : List Place} {r : Report} {i : Interpreter}

lemma admits_confined (c : Calculation) (l : List Place) (t : Pass) :
    Admits c.snapshot (·.Confined l t) fun _ _ => True where
  value _ _ _ _ _ _ _ hvalue := hvalue
  store p _ _ hdue s v hs _ := by
    obtain ⟨u, hu, hp⟩ := hdue
    exact hs.store (hu.dirty p hp) v

lemma confined_firstRound (hplan : c.plan = Plan.make c.index c.config.features d) :
    (c.firstRound host cursor).session.pass.Confined c.plan.cells c.start :=
  (firstRound_upholds (upholds_of_admits (c.admits_confined _ _) (lenient_true _)) hplan
    ⟨fun _ hp => (mem_dirty_start c).1 hp, fun _ _ => rfl, fun _ _ => Iff.rfl, fun _ _ => rfl⟩).1

lemma not_moved_firstRound (hplan : c.plan = Plan.make c.index c.config.features d) (hp : p ∉ c.plan.cells) :
    ¬ c.Moved (c.firstRound host cursor).session.pass p := by
  rw [Moved, not_not, (confined_firstRound hplan).anchors p hp, anchors_start]

lemma confined_secondRound (hplan : c.plan = Plan.make c.index c.config.features d)
    (hexcluded : d.excluded = c.config.changes.excluded) (hfirst : c.isCurrent (c.firstRound host cursor) = true) :
    (c.endPass host cursor).Confined (c.spillReaders (c.firstRound host cursor).session.pass)
      (c.firstRound host cursor).session.pass := by
  have hsame := Pass.sameArrays_foldl_invalidate (c.spillReaders (c.firstRound host cursor).session.pass)
    (c.firstRound host cursor).session.pass
  refine endPass_of_reopened (c.admits_confined _ _) (lenient_true _) hplan hexcluded ⟨fun p hp => ?_, fun p hp => ?_,
    fun p hp => ?_, fun p hp => ?_⟩
  · exact (Pass.mem_dirty_foldl_invalidate hp).resolve_right fun hp => nomatch (firstRound_done hplan hfirst p hp).1
  · rw [hsame.anchors]
  · rw [hsame.changedAnchors]
  · refine (Pass.results_foldl_invalidate fun hmem hcycle => ?_).trans (if_neg hp)
    exact acyclic_spillReaders hplan hexcluded hmem ((cycles_firstRound hplan).1 hcycle)

lemma confined_endPass (hplan : c.plan = Plan.make c.index c.config.features d)
    (hexcluded : d.excluded = c.config.changes.excluded) (hfirst : c.isCurrent (c.firstRound host cursor) = true) :
    (c.endPass host cursor).Confined (c.plan.cells ++ c.spillReaders (c.firstRound host cursor).session.pass) c.start :=
  (confined_secondRound hplan hexcluded hfirst).trans (confined_firstRound hplan)

lemma anchors_endPass (hplan : c.plan = Plan.make c.index c.config.features d)
    (hexcluded : d.excluded = c.config.changes.excluded) (hfirst : c.isCurrent (c.firstRound host cursor) = true)
    (ha : a ∉ c.plan.cells ++ c.spillReaders (c.firstRound host cursor).session.pass) :
    (c.endPass host cursor).anchors[a]? = c.config.arrayRanges[a]? := by
  rw [(confined_endPass hplan hexcluded hfirst).anchors a ha, anchors_start]

lemma covers_endPass (hplan : c.plan = Plan.make c.index c.config.features d)
    (hexcluded : d.excluded = c.config.changes.excluded) : (c.endPass host cursor).Covers
      (c.plan.cycles ++ c.plan.cells ++ c.spillReaders (c.firstRound host cursor).session.pass) := by
  have hstore : ∀ l, Admits c.snapshot (·.Covers l) fun _ _ => True := fun l =>
    admits_of_store fun _ p _ v _ ht => ht.store p v
  have hstart : c.start.Covers (c.plan.cycles ++ c.plan.cells) := by
    intro p hp
    rcases List.mem_append.1 hp with hp | hp
    · exact Or.inr ⟨_, (results_start c p).trans (if_pos hp)⟩
    · exact Or.inl ((mem_dirty_start c).2 hp)
  have hfirst : (c.firstRound host cursor).session.pass.Covers (c.plan.cycles ++ c.plan.cells) :=
    (firstRound_upholds (upholds_of_admits (hstore _) (lenient_true _)) hplan hstart).1
  have hreopened := List.foldlRecOn (motive := (·.Covers (c.plan.cycles ++ c.plan.cells)))
    (c.spillReaders (c.firstRound host cursor).session.pass) Pass.invalidate hfirst fun s hs p _ => hs.invalidate p
  refine endPass_of_reopened (hstore _) (lenient_true _) hplan hexcluded fun p hp => ?_
  rcases List.mem_append.1 hp with hp | hp
  · exact hreopened p hp
  · exact Or.inl (mem_dirty_reopened hplan hexcluded hp)

lemma changed_endPass (hplan : c.plan = Plan.make c.index c.config.features d)
    (hexcluded : d.excluded = c.config.changes.excluded) (hfirst : c.isCurrent (c.firstRound host cursor) = true)
    (ha : a ∈ (c.endPass host cursor).changedAnchors) :
    a ∈ c.plan.cells ∨ a ∈ c.spillReaders (c.firstRound host cursor).session.pass := by
  rw [← List.mem_append]
  by_contra hmem
  rw [(confined_endPass hplan hexcluded hfirst).changed a hmem] at ha
  simp [changedAnchors_start] at ha

lemma results_endPass (hplan : c.plan = Plan.make c.index c.config.features d)
    (hexcluded : d.excluded = c.config.changes.excluded) (hfirst : c.isCurrent (c.firstRound host cursor) = true)
    (hsecond : c.isCurrent (c.secondRound host cursor) = true) (hp : p ∈ c.plan.cycles ∨ p ∈ c.plan.cells ∨
      p ∈ c.spillReaders (c.firstRound host cursor).session.pass) : ∃ v, (c.endPass host cursor).results[p]? = some v :=
  (covers_endPass hplan hexcluded p (by simpa [or_assoc] using hp)).resolve_left
    fun hd => nomatch (endPass_done hplan hexcluded hfirst hsecond p hd).1

lemma isSome_values (hplan : c.plan = Plan.make c.index c.config.features d)
    (hexcluded : d.excluded = c.config.changes.excluded) (hrun : (c.run host cursor).1 = .completed r) :
    (r.values[p]?).isSome ↔ p ∈ c.plan.cycles ∨ p ∈ c.plan.cells ∨
      p ∈ c.spillReaders (c.firstRound host cursor).session.pass := by
  obtain ⟨hfirst, hsecond, rfl⟩ := report_of_completed hrun
  simp only [Option.isSome_iff_exists, report_values, mem_calculated]
  refine ⟨fun ⟨v, hp, _⟩ => hp, fun hp => ?_⟩
  obtain ⟨v, hv⟩ := results_endPass hplan hexcluded hfirst hsecond hp
  exact ⟨_, hp, v, hv, rfl⟩

/-! Formulas outside the cells. -/

/-- One formula outside the cells, after others. -/
def otherStep (c : Calculation) (y : ItemMap Value × Interpreter) (k : ItemKey) : ItemMap Value × Interpreter :=
  match c.index.other? k with
  | none => y
  | some x => (y.1.insert k (c.evaluateOther y.2 x).1, (c.evaluateOther y.2 x).2)

lemma evaluateOthers_eq (c : Calculation) (i : Interpreter) :
    c.evaluateOthers i = c.plan.others.foldl c.otherStep (∅, i) := rfl

lemma evaluateOther_pass (hclean : ∀ p, p ∉ i.session.pass.dirty) (hidle : i.Idle) (x : Entry) :
    (c.evaluateOther i x).2.session.pass = i.session.pass ∧ (c.evaluateOther i x).2.Idle := by
  have hadmits : Admits c.snapshot (· = i.session.pass) fun _ _ => True := by
    refine ⟨fun _ _ _ _ _ _ _ hvalue => hvalue, fun p _ _ hdue _ _ _ _ => ?_⟩
    obtain ⟨s, rfl, hp⟩ := hdue
    exact absurd hp (hclean p)
  exact evaluateOther_spec hadmits hidle rfl x

lemma isSome_foldl_otherStep {l : List ItemKey} {y : ItemMap Value × Interpreter} :
    ((l.foldl c.otherStep y).1[k]?).isSome ↔ (y.1[k]?).isSome ∨ k ∈ l ∧ (c.index.other? k).isSome := by
  induction l generalizing y with
  | nil => simp
  | cons m l ih =>
    rw [List.foldl_cons, ih, List.mem_cons]
    cases hm : c.index.other? m with
    | none =>
      have hstep : c.otherStep y m = y := by rw [otherStep, hm]
      rw [hstep]
      by_cases hk : k = m
      · subst hk
        simp [hm]
      · simp [hk]
    | some x =>
      have hstep : c.otherStep y m = (y.1.insert m (c.evaluateOther y.2 x).1, (c.evaluateOther y.2 x).2) := by
        rw [otherStep, hm]
      rw [hstep]
      by_cases hk : k = m
      · subst hk
        simp [hm]
      · simp [ExtTreeMap.getElem?_insert, Ne.symm hk, hk]

lemma evaluateOthers_pass (hclean : ∀ p, p ∉ i.session.pass.dirty) (hidle : i.Idle) :
    (c.evaluateOthers i).2.session.pass = i.session.pass ∧
      ∀ k v, (c.evaluateOthers i).1[k]? = some v → ∃ x j, c.index.other? k = some x ∧ j.Idle ∧
        j.session.pass = i.session.pass ∧ v = (c.evaluateOther j x).1 := by
  rw [evaluateOthers_eq]
  refine (List.foldlRecOn (motive := fun y : ItemMap Value × Interpreter => y.2.Idle ∧
    y.2.session.pass = i.session.pass ∧ ∀ k v, y.1[k]? = some v → ∃ x j, c.index.other? k = some x ∧ j.Idle ∧
      j.session.pass = i.session.pass ∧ v = (c.evaluateOther j x).1) (b := (∅, i)) _ _ ⟨hidle, rfl, by simp⟩ ?_).2
  rintro y ⟨hidle, hpass, hvalues⟩ m -
  cases hm : c.index.other? m with
  | none =>
    rw [otherStep, hm]
    exact ⟨hidle, hpass, hvalues⟩
  | some x =>
    obtain ⟨hnext, hidle'⟩ := @evaluateOther_pass c y.2 (hpass ▸ hclean) hidle x
    rw [otherStep, hm]
    refine ⟨hidle', hnext.trans hpass, fun k v hv => ?_⟩
    by_cases hk : k = m
    · subst hk
      rw [ExtTreeMap.getElem?_insert_self, Option.some.injEq] at hv
      exact ⟨x, y.2, hm, hidle, hpass, hv.symm⟩
    · exact hvalues k v (by simpa [ExtTreeMap.getElem?_insert, Ne.symm hk] using hv)

lemma isSome_others (hplan : c.plan = Plan.make c.index c.config.features d)
    (hrun : (c.run host cursor).1 = .completed r) :
    (r.others[k]?).isSome ↔ .other k ∈ dirty c.index c.config.features d := by
  obtain ⟨-, -, rfl⟩ := report_of_completed hrun
  have hothers : ((c.evaluateOthers (c.secondRound host cursor)).1[k]?).isSome ↔
      k ∈ c.plan.others ∧ (c.index.other? k).isSome := by
    rw [evaluateOthers_eq, isSome_foldl_otherStep]
    simp
  refine hothers.trans ?_
  rw [hplan, Plan.mem_others]
  refine and_iff_left_of_imp fun hk => ?_
  obtain ⟨x, hx⟩ := dirty_other hk
  rw [hx, Option.isSome_some]

end Calculation

namespace Engine

variable {e e' : Engine} {a p : Place} {waits : Bool} {r : Report} {k : ItemKey} {w : Region}

/-- The cells that a calculation goes through once more, because they read what arrays have newly covered or left. -/
def repeated (e : Engine) (waits : Bool) : List Place :=
  (e.calculationWith waits).spillReaders
    ((e.calculationWith waits).firstRound e.host.issueGeneration e.cursor).session.pass

/-- A cell with a formula that can be calculated, and that mentions something in a region. -/
structure Consumes (e : Engine) (p : Place) (w : Region) : Prop extends e.Calculable p where
  reads : ∃ f, e.index.cell? p = some f ∧ ∃ u ∈ f.references, u.overlaps w = true

lemma Consumes.mem_cells {features : List Feature} {d : Changes} (h : e.Consumes p w)
    (hd : d.excluded = e.config.changes.excluded)
    (hw : Written e.index features d {t | t ∈ dirty e.index features d} w) :
    p ∈ (Plan.make e.index features d).cells := by
  obtain ⟨f, hf, u, hu, huw⟩ := h.reads
  have hincluded : p ∉ d.excluded := hd ▸ h.included
  exact Plan.mem_cells.2 ⟨closed_dirty.cell p f hf hincluded (Or.inr (Or.inr ⟨w, hw, u, hu, huw⟩)), hd ▸ h.acyclic⟩

lemma written_output {features : List Feature} {d : Changes} (h : e.Indexed)
    (ha : a ∈ (Plan.make e.index features d).cells) :
    Written e.index features d {t | t ∈ dirty e.index features d} (e.config.output a) := by
  obtain ⟨f, hf⟩ := Plan.exists_entry ha
  exact Or.inr (Or.inl ⟨a, f, hf, (Plan.mem_cells.1 ha).1, (h.output a f hf).symm⟩)

lemma arrayRanges_of_completed (hrun : e.calculate waits = (.completed r, e')) :
    ((e.calculationWith waits).run e.host.issueGeneration e.cursor).1 = .completed r ∧
      e'.config.arrayRanges = ((e.calculationWith waits).endPass e.host.issueGeneration e.cursor).anchors := by
  obtain ⟨host, hcompleted, rfl⟩ := run_of_calculate hrun
  refine ⟨hcompleted, ?_⟩
  obtain ⟨-, -, rfl⟩ := Calculation.report_of_completed hcompleted
  rw [config_commit]
  exact Calculation.arrayRanges_commit (c := e.calculationWith waits)
    (Calculation.untouched_endPass (d := e.pending) rfl rfl)

section Completed

variable (hrun : e.calculate waits = (.completed r, e'))
include hrun

lemma isSome_values : (r.values[p]?).isSome ↔ p ∈ (e.calculationWith waits).plan.cycles ∨
    p ∈ (e.calculationWith waits).plan.cells ∨ p ∈ e.repeated waits :=
  Calculation.isSome_values (d := e.pending) rfl rfl (arrayRanges_of_completed hrun).1

lemma calculated_of_moved (hmoved : e'.config.arrayRanges[a]? ≠ e.config.arrayRanges[a]?) :
    a ∈ (e.calculationWith waits).plan.cells ∨ a ∈ e.repeated waits := by
  obtain ⟨hcompleted, hranges⟩ := arrayRanges_of_completed hrun
  obtain ⟨hfirst, -, -⟩ := Calculation.report_of_completed hcompleted
  rw [hranges] at hmoved
  by_contra h
  exact hmoved (Calculation.anchors_endPass (d := e.pending) rfl rfl hfirst fun ha => h (List.mem_append.1 ha))

lemma values_of_mem_moves {q : Place} (hq : (e.calculationWith waits).Moved
      ((e.calculationWith waits).firstRound e.host.issueGeneration e.cursor).session.pass q)
    (hp : p ∈ (Plan.make e.index [] ((e.calculationWith waits).moves
      ((e.calculationWith waits).firstRound e.host.issueGeneration e.cursor).session.pass)).cells) :
    (r.values[p]?).isSome := by
  rw [isSome_values hrun]
  by_cases hmoved : (e.calculationWith waits).Moved
      ((e.calculationWith waits).firstRound e.host.issueGeneration e.cursor).session.pass p
  · -- what has moved itself is left out of that plan, but it was planned to begin with
    by_contra h
    rw [not_or, not_or] at h
    exact Calculation.not_moved_firstRound (d := e.pending) rfl h.2.1 hmoved
  · exact Or.inr (Or.inr ((Calculation.untouched_firstRound (d := e.pending) rfl).mem_spillReaders hp hmoved hq))

/-- Formula cells see where arrays were, and where they have come to lie; but not where the array of a cell has come to
lie that was calculated once more itself. -/
theorem values_of_moved (h : e.Indexed) (hmoved : e'.config.arrayRanges[a]? ≠ e.config.arrayRanges[a]?) {t : Range}
    (ht : e.config.arrayRanges[a]? = some t ∨ e'.config.arrayRanges[a]? = some t ∧ a ∉ e.repeated waits)
    (hp : e.Consumes p (a.area t)) : (r.values[p]?).isSome := by
  obtain ⟨hcompleted, hranges⟩ := arrayRanges_of_completed hrun
  obtain ⟨hfirst, -, -⟩ := Calculation.report_of_completed hcompleted
  by_cases hagain : a ∈ e.repeated waits
  · obtain ⟨q, hq⟩ := Calculation.exists_moved_of_mem_spillReaders hagain
    have hold := ht.resolve_right fun h => h.2 hagain
    have hmem : a ∈ (Plan.make e.index [] ((e.calculationWith waits).moves
        ((e.calculationWith waits).firstRound e.host.issueGeneration e.cursor).session.pass)).cells :=
      (Calculation.sublist_spillReaders _ _).subset hagain
    have hwritten := written_output h hmem
    rw [Config.output, hold] at hwritten
    exact values_of_mem_moves hrun hq (hp.mem_cells (Calculation.excluded_moves _ _) hwritten)
  · have hend : e'.config.arrayRanges[a]? =
        ((e.calculationWith waits).firstRound e.host.issueGeneration e.cursor).session.pass.anchors[a]? := by
      rw [hranges, (Calculation.confined_secondRound (d := e.pending) rfl rfl hfirst).anchors a hagain]
    rw [hend] at hmoved ht
    refine values_of_mem_moves hrun hmoved (hp.mem_cells (Calculation.excluded_moves _ _) (Or.inl ?_))
    exact (Calculation.untouched_firstRound (d := e.pending) rfl).mem_moves hmoved (ht.symm.imp_left (·.1))

lemma mem_features {k : ItemKey} :
    k ∈ r.features ↔ ∃ n, .feature n k ∈ dirty e.index e.config.features e.pending := by
  obtain ⟨-, -, rfl⟩ := Calculation.report_of_completed (arrayRanges_of_completed hrun).1
  exact Plan.mem_features

end Completed

/-- Formulas outside the cells and features are reported if what has changed leads to them through what formulas have
written before: where arrays come to lie in the calculation makes no difference. Such formulas are evaluated when
nothing is left to be calculated, over the arrays that the calculation leaves behind. -/
theorem reported_iff (hrun : e.calculate waits = (.completed r, e')) :
    (∀ k, (r.others[k]?).isSome ↔ .other k ∈ dirty e.index e.config.features e.pending) ∧
    (∀ k, k ∈ r.features ↔ ∃ n, .feature n k ∈ dirty e.index e.config.features e.pending) ∧
    ∀ k v, r.others[k]? = some v → ∃ x j, e.index.other? k = some x ∧ j.Idle ∧
      j.session.pass.anchors = e'.config.arrayRanges ∧ (∀ p, p ∉ j.session.pass.dirty) ∧
      v = ((e.calculationWith waits).evaluateOther j x).1 := by
  obtain ⟨hcompleted, hranges⟩ := arrayRanges_of_completed hrun
  have hothers : ∀ k, (r.others[k]?).isSome ↔ .other k ∈ dirty e.index e.config.features e.pending := fun k =>
    Calculation.isSome_others (c := e.calculationWith waits) (d := e.pending) rfl hcompleted
  refine ⟨hothers, fun k => mem_features hrun, ?_⟩
  obtain ⟨hfirst, hsecond, rfl⟩ := Calculation.report_of_completed hcompleted
  have hdone := Calculation.secondRound_done (d := e.pending) rfl rfl hfirst hsecond
  have hidle := @Calculation.idle_secondRound (e.calculationWith waits) e.host.issueGeneration e.cursor e.pending rfl rfl
  have hclean : ∀ p, p ∉ ((e.calculationWith waits).secondRound e.host.issueGeneration e.cursor).session.pass.dirty :=
    fun p hp => nomatch (hdone p hp).1
  obtain ⟨hpass, hvalues⟩ := Calculation.evaluateOthers_pass (c := e.calculationWith waits) hclean hidle
  intro k v hv
  obtain ⟨x, j, hx, hidle, hj, rfl⟩ := hvalues k v hv
  refine ⟨x, j, hx, hidle, ?_, ?_, rfl⟩
  · rw [hj, hranges, Calculation.endPass, hpass]
  · rwa [hj]

/-- An array that a planned cell had before reaches everything that reads it: other formulas, features, and the formula
cells that read what those features give. -/
theorem reported_of_overlaps (h : e.Indexed) (hrun : e.calculate waits = (.completed r, e'))
    (ha : a ∈ (e.calculationWith waits).plan.cells) :
    (∀ k x, e.index.other? k = some x → (∃ u ∈ x.references, u.overlaps (e.config.output a) = true) →
      (r.others[k]?).isSome) ∧
    ∀ f ∈ e.config.features, (∃ u ∈ f.dependencies, u.overlaps (e.config.output a) = true) →
      f.key ∈ r.features ∧ ∀ w ∈ f.outputs, ∀ p, e.Consumes p w → (r.values[p]?).isSome := by
  have hwritten := written_output h ha
  obtain ⟨hothers, hfeatures, -⟩ := reported_iff hrun
  refine ⟨fun k x hx hu => ?_, fun f hf hu => ?_⟩
  · rw [hothers]
    exact closed_dirty.other k x hx (Or.inr (Or.inr ⟨_, hwritten, hu⟩))
  · obtain ⟨n, hn⟩ := List.getElem?_of_mem hf
    have hfound := closed_dirty.feature n f hn (Or.inr ⟨_, hwritten, hu⟩)
    refine ⟨(hfeatures f.key).2 ⟨n, hfound⟩, fun w hw p hp => ?_⟩
    rw [isSome_values hrun]
    exact Or.inr (Or.inl (hp.mem_cells rfl (Or.inr (Or.inr ⟨n, f, hn, hfound, hw⟩))))

end Engine

end Spreadsheet
