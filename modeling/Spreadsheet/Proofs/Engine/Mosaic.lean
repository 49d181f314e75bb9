import Spreadsheet.Proofs.Engine.Reach

/-! Recorded arrays lie apart from one another and from everything else, and have values exactly where they lie, as
long as all their anchors can be calculated whenever something is calculated. -/

namespace Spreadsheet

open Std Dependency Formula Relation Eval

namespace Pass

variable {s : Pass} {books : Books} {index : Index} {a b p x : Place} {r : Range} {v : Value}

/-- The arrays of a pass are results of formulas, and lie over nothing but their own cells, unless they are still to be
calculated: these lie where they lay before, over whatever has come there since. -/
structure Mosaic (books : Books) (index : Index) (s : Pass) : Prop where
  formula : ∀ (a : Place) (r : Range), s.anchors[a]? = some r → index.cells.contains a = true
  anchored : ∀ (a : Place) (r : Range), s.anchors[a]? = some r → (a.area r).contains a = true
  alone : ∀ a b x, s.Over a x → s.Over b x → a ∉ s.dirty → b ∉ s.dirty → a = b
  vacant : ∀ a x, s.Over a x → x ≠ a → a ∉ s.dirty → ¬ books.Occupied x ∧ index.cells.contains x = false
  live : ∀ (a : Place) (r : Range) (v : Value), s.anchors[a]? = some r → s.results[a]? = some v →
    ∃ g, v = .array g ∧ 1 < g.size ∧ target? a g.rows g.cols = some r

namespace Mosaic

lemma store (h : s.Mosaic books index) (hp : index.cells.contains p = true) (v : Value) :
    (s.store books index p v).Mosaic books index := by
  have hdirty : ∀ b, b ≠ p → b ∉ (s.store books index p v).dirty → b ∉ s.dirty := fun b hb hd hs =>
    hd (mem_dirty_store.2 ⟨hb, hs⟩)
  -- no other array lies over what the new one covers; over its anchor, which is a formula, only one still to come
  have hclear : ∀ b x, (s.store books index p v).Over p x → (s.store books index p v).Over b x →
      b ∉ (s.store books index p v).dirty → b = p := by
    intro b x hpx hbx hd
    by_cases hx : x = p
    · by_contra hb
      subst hx
      have hvacant := (h.vacant b x ((over_store hb).1 hbx) (Ne.symm hb) (hdirty b hb hd)).2
      rw [hp] at hvacant
      cases hvacant
    · exact (clear_store hpx hx).2 b hbx
  constructor
  case formula =>
    intro a r hr
    by_cases ha : a = p
    · rwa [ha]
    · rw [anchors_store ha] at hr
      exact h.formula a r hr
  case anchored =>
    intro a r hr
    by_cases ha : a = p
    · subst ha
      exact contains_of_anchors_store hr
    · rw [anchors_store ha] at hr
      exact h.anchored a r hr
  case alone =>
    intro a b x hax hbx hda hdb
    by_cases ha : a = p
    · subst ha
      exact (hclear b x hax hbx hdb).symm
    · by_cases hb : b = p
      · subst hb
        exact hclear a x hbx hax hda
      · exact h.alone a b x ((over_store ha).1 hax) ((over_store hb).1 hbx) (hdirty a ha hda) (hdirty b hb hdb)
  case vacant =>
    intro a x hax hx hd
    by_cases ha : a = p
    · subst ha
      exact ⟨fun hoccupied => not_over_store hoccupied hx hax, (clear_store hax hx).1⟩
    · exact h.vacant a x ((over_store ha).1 hax) hx (hdirty a ha hd)
  case live =>
    intro a r w hr hw
    by_cases ha : a = p
    · subst ha
      obtain ⟨g, rfl, hg, ht, -, heq⟩ := store_of_some hr
      rw [heq, results_record, if_pos rfl] at hw
      exact ⟨g, (Option.some.inj hw).symm, hg, ht⟩
    · rw [results_store_of_ne ha] at hw
      rw [anchors_store ha] at hr
      exact h.live a r w hr hw

lemma invalidate (h : s.Mosaic books index) (p : Place) : (s.invalidate p).Mosaic books index := by
  unfold Pass.invalidate
  split
  · exact h
  · have hdirty : ∀ b, b ∉ s.dirty.insert p → b ∉ s.dirty := fun b hb hs => hb (ExtTreeSet.mem_insert.2 (Or.inr hs))
    refine ⟨h.formula, h.anchored, fun a b x hax hbx hda hdb => ?_, fun a x hax hx hd => ?_, fun a r w hr hw => ?_⟩
    · exact h.alone a b x hax hbx (hdirty a hda) (hdirty b hdb)
    · exact h.vacant a x hax hx (hdirty a hd)
    · simp only [ExtTreeMap.getElem?_erase, Option.ite_none_left_eq_some] at hw
      exact h.live a r w hr hw.2

end Mosaic

end Pass

namespace Config

variable {c : Config} {a x : Place}

/-- The place has changed since the last calculation. -/
def Edited (c : Config) (x : Place) : Prop := ∃ r ∈ c.changes.ranges, r.contains x = true

/-- Recorded arrays belong to formulas, lie over nothing but their own cells, and have values where they lie; edits
since the last calculation apart. -/
structure Mosaic (c : Config) : Prop where
  formula : ∀ (a : Place) (r : Range), c.arrayRanges[a]? = some r → c.formulas[a]?.isSome ∨ c.Edited a
  anchored : c.Anchored
  alone : ∀ a b x, c.Over a x → c.Over b x → a = b
  vacant : ∀ a x, c.Over a x → x ≠ a → ¬ c.books.Occupied x ∧ c.formulas[x]? = none ∨ c.Edited x
  values : ∀ x, (c.arrayValues[x]?).isSome ↔ ∃ a, c.Over a x

lemma mosaic_of_empty (hranges : c.arrayRanges = ∅) (hvalues : c.arrayValues = ∅) : c.Mosaic := by
  have hnone : ∀ a x, ¬ c.Over a x := by
    rintro a x ⟨r, hr, -⟩
    simp [hranges] at hr
  refine ⟨fun a r hr => ?_, fun a r hr => ?_, fun a b x ha => absurd ha (hnone a x), fun a x ha => absurd ha (hnone a x),
    fun x => ?_⟩
  · simp [hranges] at hr
  · simp [hranges] at hr
  · simp [hvalues, hnone]

end Config

namespace Calculation

open Evaluator

variable {c : Calculation} {d : Changes} {s : Pass} {a b p x : Place} {again : List Place} {others : ItemMap Value}
  {host : Host} {cursor : Cursor} {l : List Place}

lemma mosaic_endPass (hplan : c.plan = Plan.make c.index c.config.features d)
    (hexcluded : d.excluded = c.config.changes.excluded) (hstart : c.start.Mosaic c.config.books c.index) :
    (c.endPass host cursor).Mosaic c.config.books c.index :=
  endPass_spec (admits_of_store fun _ _ _ v he ht => ht.store (Index.contains_cells he) v) (lenient_true _) hplan
    hexcluded hstart fun _ p _ hs => hs.invalidate p

lemma isSome_arrayValues_commit (hu : c.Untouched s) (hvalues : ∀ x, (c.config.arrayValues[x]?).isSome ↔
    ∃ a, c.config.Over a x) (halone : ∀ a b x, c.config.Over a x → c.config.Over b x → a = b) :
    ((c.config.commit (c.report s again others)).arrayValues[x]?).isSome ↔ ∃ a, s.Over a x := by
  by_cases hover : ∃ a ∈ s.changedAnchors, s.Over a x
  · obtain ⟨a, ha, r, hr, hx⟩ := hover
    have hreported : (c.report s again others).arrayValues[x]? = some _ :=
      report_arrayValues.2 ⟨⟨a, r, ha, hr, hx⟩, rfl⟩
    rw [Config.getElem?_arrayValues_commit, hreported, Option.some_or, Option.isSome_some]
    exact iff_of_true rfl ⟨a, r, hr, hx⟩
  · have hnot : ∀ a ∈ s.changedAnchors, ¬ s.Over a x := fun a ha hax => hover ⟨a, ha, hax⟩
    have hend : ∀ a, s.Over a x ↔ a ∉ s.changedAnchors ∧ c.config.Over a x := by
      intro a
      by_cases ha : a ∈ s.changedAnchors
      · exact iff_of_false (hnot a ha) fun h => h.1 ha
      · rw [hu.over ha, and_iff_right ha]
    simp only [hend]
    rw [arrayValues_commit_of_not_over hnot, Config.getElem?_kept]
    split
    · -- the array that has left was the only one there
      rename_i hleft
      obtain ⟨a, ha, hax⟩ := hleft
      refine iff_of_false (by simp) ?_
      rintro ⟨b, hb, hbx⟩
      rw [← halone a b x hax hbx] at hb
      exact hb (mem_replaced.1 ha)
    · rename_i hleft
      rw [hvalues]
      refine exists_congr fun a => (and_iff_right_of_imp fun hax ha => hleft ⟨a, ?_, hax⟩).symm
      exact mem_replaced.2 ha

lemma mosaic_commit (h : c.config.Mosaic)
    (hindex : ∀ p, c.index.cells.contains p = (c.config.formulas[p]?).isSome)
    (hplan : c.plan = Plan.make c.index c.config.features d) (hu : c.Untouched s)
    (hs : s.Mosaic c.config.books c.index) (hclean : ∀ a, a ∉ s.dirty) {t : Pass} :
    (c.config.commit (c.report s (c.spillReaders t) others)).Mosaic := by
  have hranges : (c.config.commit (c.report s (c.spillReaders t) others)).arrayRanges = s.anchors := arrayRanges_commit hu
  have hover : ∀ a x, (c.config.commit (c.report s (c.spillReaders t) others)).Over a x ↔ s.Over a x := by
    intro a x
    rw [Config.Over, hranges, Pass.Over]
  constructor
  case formula =>
    intro a r hr
    rw [Config.formulas_commit, ← hindex]
    exact Or.inl (hs.formula a r (hranges ▸ hr))
  case anchored => exact fun a r hr => hs.anchored a r (hranges ▸ hr)
  case alone => exact fun a b x hax hbx => hs.alone a b x ((hover a x).1 hax) ((hover b x).1 hbx) (hclean a) (hclean b)
  case vacant =>
    intro a x hax hx
    obtain ⟨hempty, hformula⟩ := hs.vacant a x ((hover a x).1 hax) hx (hclean a)
    have hnone : (c.report s (c.spillReaders t) others).values[x]? = none := by
      rw [Option.eq_none_iff_forall_ne_some]
      intro v hv
      obtain ⟨e, he⟩ := exists_entry_of_values hplan hv
      rw [Index.contains_cells he] at hformula
      cases hformula
    rw [hindex, Option.isSome_eq_false_iff, Option.isNone_iff_eq_none] at hformula
    refine Or.inl ⟨?_, hformula⟩
    rwa [Books.Occupied, Config.books_commit, Report.cell?_applyTo hnone]
  case values =>
    intro x
    simp only [hover]
    exact isSome_arrayValues_commit hu h.values h.alone

lemma live_of_completed (hplan : c.plan = Plan.make c.index c.config.features d)
    (hexcluded : d.excluded = c.config.changes.excluded) (hstart : c.start.Mosaic c.config.books c.index) {r : Report}
    (hrun : (c.run host cursor).1 = .completed r) {t : Range} (ht : r.arrayRanges[a]? = some t) :
    ∃ g, (c.endPass host cursor).results[a]? = some (.array g) ∧ 1 < g.size ∧
      Pass.target? a g.rows g.cols = some t ∧ r.values[a]? = some (Value.array g).toScalar := by
  obtain ⟨hfirst, hsecond, rfl⟩ := report_of_completed hrun
  rw [report_arrayRanges, Option.ite_none_right_eq_some] at ht
  have hmem := changed_endPass hplan hexcluded hfirst ht.1
  obtain ⟨v, hv⟩ := results_endPass hplan hexcluded hfirst hsecond (Or.inr hmem)
  obtain ⟨g, rfl, hg, htarget⟩ := (mosaic_endPass hplan hexcluded hstart).live a t v ht.2 hv
  exact ⟨g, hv, hg, htarget, report_values.2 ⟨Or.inr (mem_calculated.2 hmem), _, hv, rfl⟩⟩

end Calculation

namespace Engine

variable {e e' : Engine} {a p x : Place} {waits : Bool} {r : Report} {host : Host} {d : Dataset}

/-- All recorded arrays can be calculated. -/
def Lively (e : Engine) : Prop := ∀ (a : Place) (r : Range), e.config.arrayRanges[a]? = some r → e.Calculable a

/-- What may happen to an engine that calculates only while all its arrays can be calculated. -/
def Tends (e e' : Engine) : Prop := Next (fun _ _ _ => True) e e' ∧ ∀ waits, e' = (e.calculate waits).2 → e.Lively

/-- Recorded arrays lie apart but for edits, and the index is up to date. -/
structure Mosaic (e : Engine) : Prop where
  indexed : e.Indexed
  config : e.config.Mosaic

lemma isSome_cell? (h : e.Indexed) : e.index.cells.contains p = (e.config.formulas[p]?).isSome := by
  rw [← h.entry, Index.cell?, ExtTreeMap.contains_eq_isSome_getElem?]

lemma mosaic_start (h : e.Mosaic) (hl : e.Lively) :
    (e.calculationWith waits).start.Mosaic e.config.books e.index := by
  have hanchors : (e.calculationWith waits).start.anchors = e.config.arrayRanges := Calculation.anchors_start _
  have hover : ∀ a x, (e.calculationWith waits).start.Over a x ↔ e.config.Over a x := fun a x => Calculation.over_start
  constructor
  case formula =>
    intro a r hr
    rw [hanchors] at hr
    rw [isSome_cell? h.indexed, (hl a r hr).formula]
  case anchored =>
    intro a r hr
    exact h.config.anchored a r (hanchors ▸ hr)
  case alone =>
    intro a b x hax hbx _ _
    exact h.config.alone a b x ((hover a x).1 hax) ((hover b x).1 hbx)
  case vacant =>
    intro a x hax hx hd
    -- what has come under an array since makes the array be calculated
    rw [hover] at hax
    have hedited : ¬ e.config.Edited x := by
      rintro ⟨s, hs, hsx⟩
      refine hd ((Calculation.mem_dirty_start _).2 (mem_cells_of_over h.indexed hs hsx hax ?_))
      obtain ⟨r, hr, -⟩ := hax
      exact hl a r hr
    obtain ⟨hempty, hformula⟩ := (h.config.vacant a x hax hx).resolve_right hedited
    exact ⟨hempty, by rw [isSome_cell? h.indexed, hformula, Option.isSome_none]⟩
  case live =>
    intro a r v hr hv
    rw [Calculation.results_start, Option.ite_none_right_eq_some] at hv
    rw [hanchors] at hr
    exact absurd (Plan.mem_cycles.1 hv.1).2 (hl a r hr).acyclic

/-- A calculation leaves no array over anything else, and takes all edits into account. -/
lemma Mosaic.commit (h : e.Mosaic) (hl : e.Lively)
    (hrun : ((e.calculationWith waits).run e.host.issueGeneration e.cursor).1 = .completed r) :
    ({ e with host }.commit r).Mosaic ∧ ∀ x, ¬ ({ e with host }.commit r).config.Edited x := by
  have hindexed : ({ e with host } : Engine).Indexed := ⟨h.indexed.entry, h.indexed.output⟩
  have hstart : (e.calculationWith waits).start.Mosaic e.config.books e.index := mosaic_start h hl
  obtain ⟨hfirst, hsecond, rfl⟩ := Calculation.report_of_completed hrun
  have hmosaic := @Calculation.mosaic_endPass (e.calculationWith waits) e.pending e.host.issueGeneration e.cursor
    rfl rfl hstart
  refine ⟨⟨hindexed.commit _, ?_⟩, ?_⟩
  · rw [config_commit]
    refine Calculation.mosaic_commit (c := e.calculationWith waits) (d := e.pending) h.config
      (fun p => isSome_cell? h.indexed) rfl (Calculation.untouched_endPass (d := e.pending) rfl rfl) hmosaic fun a ha => ?_
    exact nomatch (Calculation.endPass_done (d := e.pending) rfl rfl hfirst hsecond a ha).1
  · rw [config_commit]
    rintro x ⟨t, ht, -⟩
    exact nomatch ht

lemma Mosaic.setCell {cell : Cell} (h : e.Mosaic) (hset : e.setCell p cell = .ok e') : e'.Mosaic := by
  obtain ⟨-, hbooks, hranges, hformulas, hchanges, hindexed⟩ := setCell_ok hset
  have hedited : ∀ x, e.config.Edited x ∨ x = p → e'.config.Edited x := by
    rintro x (⟨t, ht, hx⟩ | rfl)
    · exact ⟨t, by simp [hchanges, ht], hx⟩
    · exact ⟨x.region, by simp [hchanges], Place.contains_region.2 rfl⟩
  have hover : ∀ a x, e'.config.Over a x ↔ e.config.Over a x := fun a x => by rw [Config.Over, hranges, Config.Over]
  refine ⟨hindexed, fun a r hr => ?_, ?_, fun a b x hax hbx => ?_, fun a x hax hx => ?_, fun x => ?_⟩
  · rw [hranges] at hr
    by_cases hap : a = p
    · exact Or.inr (hedited a (Or.inr hap))
    · rw [hformulas, if_neg hap]
      exact (h.config.formula a r hr).imp_right fun ha => hedited a (Or.inl ha)
  · rw [Config.Anchored, hranges]
    exact h.config.anchored
  · exact h.config.alone a b x ((hover a x).1 hax) ((hover b x).1 hbx)
  · by_cases hxp : x = p
    · exact Or.inr (hedited x (Or.inr hxp))
    · rw [hformulas, if_neg hxp, hbooks, Books.Occupied, Books.cell?_setCell, if_neg hxp]
      exact (h.config.vacant a x ((hover a x).1 hax) hx).imp_right fun hx => hedited x (Or.inl hx)
  · simp only [(setCell_keeps hset).1, hover]
    exact h.config.values x

lemma Mosaic.markDirty (h : e.Mosaic) (t : Region) : (e.markDirty t).Mosaic := by
  have hedited : ∀ x, e.config.Edited x → (e.markDirty t).config.Edited x := fun x ⟨u, hu, hx⟩ =>
    ⟨u, List.mem_append_left _ hu, hx⟩
  refine ⟨⟨h.indexed.entry, h.indexed.output⟩, fun a r hr => ?_, h.config.anchored, h.config.alone, fun a x hax hx => ?_,
    h.config.values⟩
  · exact (h.config.formula a r hr).imp_right (hedited a)
  · exact (h.config.vacant a x hax hx).imp_right (hedited x)

lemma Mosaic.next (h : e.Mosaic) (hn : Tends e e') : e'.Mosaic := by
  have hhost : ∀ host, ({ e with host } : Engine).Mosaic := fun host =>
    ⟨⟨h.indexed.entry, h.indexed.output⟩, h.config⟩
  obtain ⟨hn, hlively⟩ := hn
  cases hn with
  | setCell _ hset => exact h.setCell hset
  | markDirty t => exact h.markDirty t
  | register f => exact ⟨indexed_reindex _, h.config⟩
  | invalidate => exact hhost _
  | evaluate text p waits => exact hhost _
  | calculate waits =>
    rcases e.calculate_cases waits with ⟨r, host, hrun, heq⟩ | ⟨n, host, -, heq⟩
    · rw [heq]
      exact (h.commit (hlively waits rfl) (congrArg Prod.fst hrun)).1
    · rw [heq]
      exact hhost host

lemma mosaic_load (hranges : (Config.load d).arrayRanges = ∅) (hvalues : (Config.load d).arrayValues = ∅) :
    (e.load d).Mosaic := ⟨indexed_reindex _, Config.mosaic_of_empty hranges hvalues⟩

lemma Mosaic.later (h : e.Mosaic) (hn : ReflTransGen Tends e e') : e'.Mosaic := by
  induction hn with
  | refl => exact h
  | tail _ hn ih => exact ih.next hn

/-- What is not calculated keeps the array that is recorded for it, even if its formula is gone. -/
theorem arrayRanges_of_not_calculable (h : e.Indexed) (ha : ¬ e.Calculable a)
    (hrun : e.calculate waits = (.completed r, e')) : e'.config.arrayRanges[a]? = e.config.arrayRanges[a]? := by
  have hcells : ∀ (features : List Feature) (d : Changes), d.excluded = e.config.changes.excluded →
      a ∉ (Plan.make e.index features d).cells := by
    intro features d hd hmem
    obtain ⟨hdirty, hacyclic⟩ := Plan.mem_cells.1 hmem
    obtain ⟨hincluded, f, hf⟩ := dirty_cell hdirty
    refine ha ⟨?_, hd ▸ hincluded, hd ▸ hacyclic⟩
    rw [← h.entry, hf, Option.isSome_some]
  by_contra hmoved
  rcases calculated_of_moved hrun hmoved with hmem | hmem
  · exact hcells e.config.features e.pending rfl hmem
  · have hmem := (Calculation.sublist_spillReaders _ _).subset hmem
    exact hcells [] (Calculation.moves _ _) rfl hmem

/-- After every calculation the recorded arrays belong to formulas and lie over nothing but their own cells, which
have values because of them; and those that the calculation has put up are the results of their anchors. So it is as
long as every recorded array can be calculated when it comes to that: the array of a cell that has lost its formula, is
excluded or got onto a cycle stays where it is, and later ones may come to lie over it. -/
theorem mosaic_of_history {e₀ : Engine} (hranges : (Config.load d).arrayRanges = ∅)
    (hvalues : (Config.load d).arrayValues = ∅) (hhistory : ReflTransGen Tends (e₀.load d) e) (hlively : e.Lively)
    (hrun : e.calculate waits = (.completed r, e')) :
    (∀ (a : Place) (t : Range), e'.config.arrayRanges[a]? = some t →
      (e'.index.cell? a).isSome ∧ (a.area t).contains a = true) ∧
    (∀ a b x, e'.config.Over a x → e'.config.Over b x → a = b) ∧
    (∀ a x, e'.config.Over a x → x ≠ a → ¬ e'.config.books.Occupied x ∧ e'.index.cell? x = none) ∧
    (∀ x, (e'.config.arrayValues[x]?).isSome ↔ ∃ a, e'.config.Over a x) ∧
    ∀ (a : Place) (t : Range), r.arrayRanges[a]? = some t → ∃ g : Grid Value, 1 < g.size ∧
      Pass.target? a g.rows g.cols = some t ∧ r.values[a]? = some (Value.array g).toScalar ∧
      ((e.calculationWith waits).endPass e.host.issueGeneration e.cursor).results[a]? = some (.array g) := by
  have hmosaic := (mosaic_load hranges hvalues).later hhistory
  obtain ⟨host, hcompleted, rfl⟩ := run_of_calculate hrun
  obtain ⟨hafter, hedited⟩ : ({ e with host }.commit r).Mosaic ∧ ∀ x, ¬ ({ e with host }.commit r).config.Edited x :=
    hmosaic.commit hlively hcompleted
  refine ⟨fun a t ht => ⟨?_, hafter.config.anchored a t ht⟩, hafter.config.alone, fun a x hax hx => ?_,
    hafter.config.values, fun a t ht => ?_⟩
  · rw [hafter.indexed.entry]
    exact (hafter.config.formula a t ht).resolve_right (hedited a)
  · obtain ⟨hempty, hformula⟩ := (hafter.config.vacant a x hax hx).resolve_right (hedited x)
    refine ⟨hempty, ?_⟩
    rw [← Option.isNone_iff_eq_none, ← Option.isSome_eq_false_iff, hafter.indexed.entry, hformula, Option.isSome_none]
  · obtain ⟨g, hresult, hg, htarget, hvalue⟩ := Calculation.live_of_completed (c := e.calculationWith waits)
      (d := e.pending) rfl rfl (mosaic_start hmosaic hlively) hcompleted ht
    exact ⟨g, hg, htarget, hvalue, hresult⟩

end Engine

end Spreadsheet
