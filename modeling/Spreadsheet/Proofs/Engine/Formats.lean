import Spreadsheet.Proofs.Engine.Reach

/-! Number formats that results take over. A calculation goes through its cells once, and a cell takes the format that the
cell its formula begins with has at that moment. Where that cell has had its turn this is the format that it has in the end. -/

namespace Spreadsheet

open Std Dependency Formula Relation

namespace Dependency

lemma Before.append_left {α : Type} {l : List α} {a b : α} (h : Before l a b) (l' : List α) : Before (l ++ l') a b :=
  h.trans (List.sublist_append_left l l')

lemma Before.append_right {α : Type} {l : List α} {a b : α} (h : Before l a b) (l' : List α) : Before (l' ++ l) a b :=
  h.trans (List.sublist_append_right l' l)

lemma before_append {α : Type} {l l' : List α} {a b : α} (ha : a ∈ l) (hb : b ∈ l') : Before (l ++ l') a b :=
  (List.singleton_sublist.2 ha).append (List.singleton_sublist.2 hb)

lemma before_cons_iff {α : Type} {done rest : List α} {a b : α} (h : (done ++ b :: rest).Nodup) :
    Before (done ++ b :: rest) a b ↔ a ∈ done := by
  refine ⟨fun hbefore => ?_, fun ha => before_append ha List.mem_cons_self⟩
  have hmem : a ∈ done ++ b :: rest := hbefore.subset List.mem_cons_self
  refine (List.mem_append.1 hmem).resolve_right fun hrest => ?_
  rcases List.mem_cons.1 hrest with rfl | hrest
  · exact hbefore.asymm h hbefore
  · have hback : Before (b :: rest) b a := List.cons_sublist_cons.2 (List.singleton_sublist.2 hrest)
    exact (hback.append_right done).asymm h hbefore

namespace Index

variable {i : Index} {l : List Place} {p q : Place}

lemma Ordered.nodup (h : i.Ordered l) : l.Nodup := h.later.imp And.left

lemma Ordered.before_of_reads (h : i.Ordered l) (hp : p ∈ l) (hq : q ∈ l) (hr : i.Reads p q) : Before l q p := by
  induction l with
  | nil => cases hp
  | cons x l ih =>
    rcases List.mem_cons.1 hp with rfl | hpl
    · exact absurd hr (h.not_reads hq)
    · rcases List.mem_cons.1 hq with rfl | hql
      · exact List.cons_sublist_cons.2 (List.singleton_sublist.2 hpl)
      · exact (ih h.tail hpl hql).trans (List.sublist_cons_self x l)

/-- What is recorded of formulas has all references that they make. -/
def Traced (i : Index) : Prop := ∀ p e, i.cell? p = some e → referencesOf p.book p.sheet e.node ⊆ e.references

/-- The cell whose format a cell can take over. -/
def source? (i : Index) (p : Place) : Option Place := (i.cell? p).bind (Calculation.leadingCell? · p)

lemma exists_of_source? (h : i.source? p = some q) : ∃ e, i.cell? p = some e ∧
    ∃ t ∈ referencesOf p.book p.sheet e.node, t.range.isSingle = true ∧
      q = ⟨t.book, t.sheet, t.range.start.row, t.range.start.col⟩ := by
  obtain ⟨e, he, h⟩ := Option.bind_eq_some_iff.1 h
  refine ⟨e, he, ?_⟩
  rw [Calculation.leadingCell?] at h
  split at h
  · rename_i book sheet range hfind
    split at h
    · rename_i hsingle
      exact ⟨_, List.mem_filterMap.2 ⟨_, List.mem_of_find?_eq_some hfind, rfl⟩, hsingle, (Option.some.inj h).symm⟩
    · cases h
  · cases h

lemma Traced.reads_source (h : i.Traced) (hsource : i.source? p = some q) {f : Entry} (hf : i.cell? q = some f)
    (houtput : f.output.contains q = true) : i.Reads p q := by
  obtain ⟨e, he, t, ht, hsingle, rfl⟩ := exists_of_source? hsource
  refine ⟨e, f, he, hf, t, h p e he ht, ?_⟩
  rw [Region.overlaps_of_isSingle hsingle]
  exact houtput

end Index

lemma Entry.subset_references_ofText {s : Surroundings} {p : Place} {text : String} {output : Region} :
    referencesOf p.book p.sheet (ofText s p.book p.sheet text output).node ⊆
      (ofText s p.book p.sheet text output).references := by
  rw [references_ofText, node_ofText, Surroundings.trees, List.flatMap_cons]
  exact List.subset_append_left _ _

end Dependency

lemma Config.traced_index (c : Config) (r : Registry) : (c.index r).Traced := by
  intro p e he
  rw [cell?_index, Option.map_eq_some_iff] at he
  obtain ⟨f, -, rfl⟩ := he
  exact Entry.subset_references_ofText

namespace Calculation

variable {c : Calculation} {s : Pass} {m : PlaceMap String} {l done rest again : List Place} {p q : Place} {d : Changes}

/-- The cell has a result that is no error, and no format of its own. -/
structure Unformatted (c : Calculation) (s : Pass) (p : Place) : Prop where
  result : ∃ v, s.results[p]? = some v ∧ v.isError = false
  format : p ∉ c.config.formats

/-- The format that a cell takes over when some formats are known. -/
def inherited (c : Calculation) (m : PlaceMap String) (p : Place) : Option String :=
  (c.index.source? p).bind fun q => m[q]?.or c.config.formats[q]?

lemma inferFormat_of_unformatted (h : c.Unformatted s p) :
    c.inferFormat s m p = ((c.inherited m p).map (m.insert p)).getD m := by
  obtain ⟨⟨v, hv, herror⟩, hformat⟩ := h
  have hnone : c.config.formats.contains p = false := Bool.eq_false_iff.2 (mt ExtTreeMap.contains_iff_mem.1 hformat)
  rw [inferFormat, inherited, Index.source?]
  simp only [hv, herror, hnone, Option.map_some, Bool.not_false, Option.getD_some, Bool.not_true, Bool.or_self,
    Bool.false_eq_true, if_false]
  cases (c.index.cell? p).bind (leadingCell? · p) with
  | none => rfl
  | some q =>
    dsimp only [Option.bind_some]
    cases m[q]?.or c.config.formats[q]? <;> rfl

lemma inferFormat_of_not_unformatted (h : ¬ c.Unformatted s p) : c.inferFormat s m p = m := by
  rw [inferFormat]
  split
  · rfl
  · rename_i hneither
    simp only [Bool.or_eq_true, not_or, Bool.not_eq_true', Bool.not_eq_true, Bool.not_eq_false] at hneither
    obtain ⟨hresult, hformat⟩ := hneither
    refine absurd ⟨?_, fun hp => ?_⟩ h
    · cases hv : s.results[p]? with
      | none => simp [hv] at hresult
      | some v => exact ⟨v, rfl, by simpa [hv] using hresult⟩
    · rw [ExtTreeMap.contains_iff_mem.2 hp] at hformat
      cases hformat

lemma getElem?_inferFormat_of_ne (h : p ≠ q) : (c.inferFormat s m p)[q]? = m[q]? := by
  by_cases hp : c.Unformatted s p
  · rw [inferFormat_of_unformatted hp]
    cases c.inherited m p with
    | none => rfl
    | some format => exact ExtTreeMap.getElem?_insert.trans (if_neg (by rwa [Std.compare_eq_iff_eq]))
  · rw [inferFormat_of_not_unformatted hp]

lemma getElem?_inferFormat_self (hm : m[p]? = none) :
    (c.inferFormat s m p)[p]? = open Classical in if c.Unformatted s p then c.inherited m p else none := by
  split
  · rename_i hp
    rw [inferFormat_of_unformatted hp]
    cases c.inherited m p with
    | none => exact hm
    | some format => exact ExtTreeMap.getElem?_insert_self
  · rename_i hp
    rw [inferFormat_of_not_unformatted hp, hm]

lemma getElem?_foldl_inferFormat (hp : p ∉ l) : (l.foldl (c.inferFormat s) m)[p]? = m[p]? := by
  induction l generalizing m with
  | nil => rfl
  | cons q l ih =>
    obtain ⟨hpq, hp⟩ := not_or.1 (mt List.mem_cons.2 hp)
    rw [List.foldl_cons, ih hp, getElem?_inferFormat_of_ne (Ne.symm hpq)]

lemma getElem?_formats (hl : l.Nodup) (hp : p ∈ l) (h : c.Unformatted s p) :
    (l.foldl (c.inferFormat s) ∅)[p]? = (c.index.source? p).bind fun q =>
      (open Classical in if Before l q p then (l.foldl (c.inferFormat s) ∅)[q]? else none).or c.config.formats[q]? := by
  obtain ⟨done, rest, rfl⟩ := List.append_of_mem hp
  have hdone : p ∉ done := fun hmem => List.disjoint_of_nodup_append hl hmem List.mem_cons_self
  have hrest : p ∉ rest := (List.nodup_cons.1 hl.of_append_right).1
  have hstart : (done.foldl (c.inferFormat s) ∅)[p]? = none :=
    (getElem?_foldl_inferFormat hdone).trans ExtTreeMap.getElem?_empty
  have hbefore : ∀ q, (open Classical in if Before (done ++ p :: rest) q p then
      ((done ++ p :: rest).foldl (c.inferFormat s) ∅)[q]? else none) = (done.foldl (c.inferFormat s) ∅)[q]? := by
    intro q
    rw [before_cons_iff hl]
    split
    · rename_i hq
      rw [List.foldl_append, getElem?_foldl_inferFormat fun hmem => List.disjoint_of_nodup_append hl hq hmem]
    · rename_i hq
      exact ((getElem?_foldl_inferFormat hq).trans ExtTreeMap.getElem?_empty).symm
  simp only [hbefore]
  rw [List.foldl_append, List.foldl_cons, getElem?_foldl_inferFormat hrest, getElem?_inferFormat_self hstart, if_pos h]
  rfl

lemma getElem?_formats_of_not_unformatted (h : ¬ c.Unformatted s p) (l : List Place) :
    (l.foldl (c.inferFormat s) ∅)[p]? = none := by
  refine List.foldlRecOn (motive := fun m : PlaceMap String => m[p]? = none) _ _ ExtTreeMap.getElem?_empty
    fun m hm q _ => ?_
  by_cases hq : q = p
  · rw [hq, inferFormat_of_not_unformatted h, hm]
  · rw [getElem?_inferFormat_of_ne hq, hm]

lemma nodup_calculated (hcells : c.plan.cells.Nodup) (hagain : again.Nodup) : (c.calculated again).Nodup := by
  rw [calculated_eq]
  refine hcells.append (hagain.filter _) fun p hp hagain => ?_
  exact of_decide_eq_true (List.mem_filter.1 hagain).2 hp

/-- A cell that is read has had its turn before, unless the plan has left it out. -/
lemma before_calculated (hcells : c.index.Ordered c.plan.cells) (hagain : c.index.Ordered again)
    (hp : p ∈ c.calculated again) (hq : q ∈ c.calculated again) (hr : c.index.Reads p q) :
    Before (c.calculated again) q p ↔ ¬ (p ∈ c.plan.cells ∧ q ∉ c.plan.cells) := by
  have hnodup : (c.calculated again).Nodup := nodup_calculated hcells.nodup hagain.nodup
  rw [calculated_eq, List.mem_append, List.mem_filter] at hp hq
  rw [calculated_eq] at hnodup ⊢
  by_cases hpc : p ∈ c.plan.cells
  · by_cases hqc : q ∈ c.plan.cells
    · exact iff_of_true ((hcells.before_of_reads hpc hqc hr).append_left _) fun h => h.2 hqc
    · have hlate : q ∈ again.filter (· ∉ c.plan.cells) := List.mem_filter.2 (hq.resolve_left hqc)
      exact iff_of_false ((before_append hpc hlate).asymm hnodup) (not_not.2 ⟨hpc, hqc⟩)
  · have hlate : p ∈ again.filter (· ∉ c.plan.cells) := List.mem_filter.2 (hp.resolve_left hpc)
    refine iff_of_true ?_ fun h => hpc h.1
    by_cases hqc : q ∈ c.plan.cells
    · exact before_append hqc hlate
    · have hearly : q ∈ again.filter (· ∉ c.plan.cells) := List.mem_filter.2 (hq.resolve_left hqc)
      exact ((hagain.sublist List.filter_sublist).before_of_reads hlate hearly hr).append_right _

lemma anchored_endPass {host : Host} {cursor : Cursor} (hplan : c.plan = Plan.make c.index c.config.features d)
    (hexcluded : d.excluded = c.config.changes.excluded) (h : c.config.Anchored) (a : Place) (r : Range)
    (hr : (c.endPass host cursor).anchors[a]? = some r) : (a.area r).contains a = true := by
  let J : Pass → Prop := fun s => ∀ (a : Place) (r : Range), s.anchors[a]? = some r → (a.area r).contains a = true
  have hstore : Evaluator.Admits c.snapshot J fun _ _ => True := Evaluator.admits_of_store fun s p _ v _ hs a r hr => by
    by_cases hap : a = p
    · exact hap ▸ Pass.contains_of_anchors_store (hap ▸ hr)
    · exact hs a r (Pass.anchors_store hap ▸ hr)
  have hfirst : J (c.firstRound host cursor).session.pass :=
    (firstRound_upholds (upholds_of_admits hstore (lenient_true _)) hplan fun a r hr => h a r (by rwa [anchors_start] at hr)).1
  refine endPass_of_reopened hstore (lenient_true _) hplan hexcluded (fun a r hr => hfirst a r ?_) a r hr
  rwa [← (Pass.sameArrays_foldl_invalidate _ _).anchors]

end Calculation

namespace Engine

variable {e e' : Engine} {p q : Place} {cell : Cell} {waits : Bool} {r : Report}

/-- The index knows what formulas read and where their arrays lie, which cover their anchors. -/
structure Traced (e : Engine) : Prop extends e.Indexed where
  index : e.index.Traced
  anchored : e.config.Anchored

lemma traced_reindex (h : e.config.Anchored) : e.reindex.Traced :=
  { indexed_reindex e with index := Config.traced_index _ _, anchored := h }

lemma traced_load {d : Dataset} (h : (Config.load d).Anchored) : (e.load d).Traced := traced_reindex h

lemma Traced.setCell (h : e.Traced) (hset : e.setCell p cell = .ok e') : e'.Traced := by
  have hanchored : e'.config.Anchored := by
    rw [Config.Anchored, (setCell_ok hset).2.2.1]
    exact h.anchored
  rw [Engine.setCell] at hset
  split at hset
  · cases hset
  · obtain rfl := Except.ok.inj hset
    exact traced_reindex hanchored

lemma Traced.commit (h : e.Traced) {r : Report} (ha : (e.config.commit r).Anchored) : (e.commit r).Traced := by
  have hindexed := h.toIndexed.commit r
  rw [commit_eq] at hindexed ⊢
  split
  · rename_i hempty
    rw [if_pos hempty] at hindexed
    exact { hindexed with index := h.index, anchored := ha }
  · exact traced_reindex ha

lemma Traced.calculate (h : e.Traced) (hrun : e.calculate waits = (.completed r, e')) : e'.Traced := by
  obtain ⟨hcompleted, hranges⟩ := arrayRanges_of_completed hrun
  obtain ⟨host, -, rfl⟩ := run_of_calculate hrun
  have ha : (Engine.commit { e with host } r).config.Anchored := fun a t ht =>
    Calculation.anchored_endPass (d := e.pending) rfl rfl h.anchored a t (hranges ▸ ht)
  rw [config_commit] at ha
  exact Traced.commit (e := { e with host }) { h with } ha

/-- A cell has been calculated, its result is no error, and it has no format of its own. -/
structure TakesOver (e : Engine) (waits : Bool) (p : Place) : Prop where
  calculated : p ∈ (e.calculationWith waits).plan.cells ∨ p ∈ e.repeated waits
  unformatted : (e.calculationWith waits).Unformatted
    ((e.calculationWith waits).endPass e.host.issueGeneration e.cursor) p

/-- The plan has a cell but leaves out one that is calculated later. -/
def Misses (e : Engine) (waits : Bool) (p q : Place) : Prop :=
  p ∈ (e.calculationWith waits).plan.cells ∧ q ∉ (e.calculationWith waits).plan.cells ∧ q ∈ e.repeated waits

lemma not_misses_of_force (hforce : e.config.changes.force = true) : ¬ e.Misses waits p q := by
  rintro ⟨-, hq, hagain⟩
  have hmem := (Calculation.sublist_spillReaders _ _).subset hagain
  obtain ⟨f, hf⟩ := Plan.exists_entry hmem
  obtain ⟨hdirty, hcycle⟩ := Plan.mem_cells.1 hmem
  have hincluded := (dirty_cell hdirty).1
  rw [Calculation.excluded_moves] at hcycle hincluded
  exact hq (Plan.mem_cells.2 ⟨closed_dirty.cell q f hf hincluded (Or.inl (Or.inl hforce)), hcycle⟩)

section Completed

variable (hrun : e.calculate waits = (.completed r, e'))
include hrun

lemma formats_calculate (p : Place) : e'.config.formats[p]? = r.formats[p]?.or e.config.formats[p]? := by
  obtain ⟨host, -, rfl⟩ := run_of_calculate hrun
  rw [config_commit, Config.commit, Table.getElem?_foldl_over]

lemma formats_of_completed (hinfer : e.options.inferFormats = true) :
    r.formats = ((e.calculationWith waits).calculated (e.repeated waits)).foldl ((e.calculationWith waits).inferFormat
      ((e.calculationWith waits).endPass e.host.issueGeneration e.cursor)) ∅ := by
  obtain ⟨-, -, rfl⟩ := Calculation.report_of_completed (arrayRanges_of_completed hrun).1
  exact if_pos hinfer

lemma formats_of_not_takesOver (hinfer : e.options.inferFormats = true) (hp : ¬ e.TakesOver waits p) :
    r.formats[p]? = none := by
  rw [formats_of_completed hrun hinfer]
  by_cases hmem : p ∈ (e.calculationWith waits).calculated (e.repeated waits)
  · exact Calculation.getElem?_formats_of_not_unformatted (fun hu => hp ⟨Calculation.mem_calculated.1 hmem, hu⟩) _
  · exact (Calculation.getElem?_foldl_inferFormat hmem).trans ExtTreeMap.getElem?_empty

/-- A cell takes over the format that the cell its formula begins with has in the end, unless this cell was given one only
after the planned cells. -/
theorem formats_of_takesOver (h : e.Traced) (hinfer : e.options.inferFormats = true) (hp : e.TakesOver waits p) :
    r.formats[p]? = (e.index.source? p).bind fun q =>
      (open Classical in if e.Misses waits p q then none else r.formats[q]?).or e.config.formats[q]? := by
  let c := e.calculationWith waits
  have hcells : c.index.Ordered c.plan.cells := Plan.ordered_cells
  have hagain : c.index.Ordered (e.repeated waits) := Plan.ordered_cells.sublist (Calculation.sublist_spillReaders _ _)
  have hnodup := Calculation.nodup_calculated hcells.nodup hagain.nodup
  have hmem : p ∈ c.calculated (e.repeated waits) := Calculation.mem_calculated.2 hp.calculated
  rw [formats_of_completed hrun hinfer, Calculation.getElem?_formats hnodup hmem hp.unformatted]
  refine Option.bind_congr fun q hq => congrArg (Option.or · _) ?_
  by_cases hqmem : q ∈ c.calculated (e.repeated waits)
  · obtain ⟨f, hf⟩ : ∃ f, e.index.cell? q = some f :=
      (Calculation.mem_calculated.1 hqmem).elim (hcells.entry q) (hagain.entry q)
    have hreads : c.index.Reads p q :=
      h.index.reads_source hq hf (h.output q f hf ▸ h.anchored.contains_output q)
    have hmisses : e.Misses waits p q ↔ p ∈ c.plan.cells ∧ q ∉ c.plan.cells :=
      ⟨fun hm => ⟨hm.1, hm.2.1⟩, fun hm => ⟨hm.1, hm.2, (Calculation.mem_calculated.1 hqmem).resolve_left hm.2⟩⟩
    simp only [hmisses, Calculation.before_calculated hcells hagain hmem hqmem hreads]
    exact ite_not _ _ _
  · rw [Calculation.getElem?_foldl_inferFormat hqmem, ExtTreeMap.getElem?_empty, ite_self, ite_self]

theorem formats_source (h : e.Traced) (hinfer : e.options.inferFormats = true) (hp : e.TakesOver waits p)
    (hplanned : ∀ q, e.index.source? p = some q → ¬ e.Misses waits p q) :
    e'.config.formats[p]? = (e.index.source? p).bind (e'.config.formats[·]?) := by
  have hnone : e.config.formats[p]? = none := ExtTreeMap.getElem?_eq_none hp.unformatted.format
  rw [formats_calculate hrun, hnone, Option.or_none, formats_of_takesOver hrun h hinfer hp]
  refine Option.bind_congr fun q hq => ?_
  rw [if_neg (hplanned q hq), formats_calculate hrun]

/-- Formats pass on along chains of cells, however long. -/
theorem formats_chain (h : e.Traced) (hinfer : e.options.inferFormats = true)
    (hchain : ReflTransGen (fun p q => e.TakesOver waits p ∧ e.index.source? p = some q ∧ ¬ e.Misses waits p q) p q) :
    e'.config.formats[p]? = e'.config.formats[q]? := by
  induction hchain with
  | refl => rfl
  | tail _ hstep ih =>
    obtain ⟨hp, hsource, hplanned⟩ := hstep
    rw [ih, formats_source hrun h hinfer hp fun q hq => Option.some.inj (hsource.symm.trans hq) ▸ hplanned, hsource,
      Option.bind_some]

end Completed

end Engine

end Spreadsheet
