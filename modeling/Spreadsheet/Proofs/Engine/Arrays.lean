import Spreadsheet.Proofs.Engine.Commit

/-! Where arrays lie in the course of a calculation, and what of them the next one finds. -/

namespace Spreadsheet

open Std Dependency Formula

/-- An array lay over a place before a calculation. -/
def Config.Over (c : Config) (a x : Place) : Prop := ∃ r, c.arrayRanges[a]? = some r ∧ (a.area r).contains x = true

namespace Calculation

variable {c : Calculation} {s : Pass} {a b p q x : Place} {r : Range} {e : Entry} {g : Grid Value} {v : Value}

/-- No other array covered the cell before the calculation. -/
def Lone (c : Calculation) (a : Place) : Prop := ∀ b, c.config.Over b a → b = a

lemma over_start : c.start.Over a x ↔ c.config.Over a x := by rw [Pass.Over, anchors_start, Config.Over]

/-- The array of an anchor lies over a range. The items show in its cells, but for the anchor itself if there
was another array over it. -/
structure Laid (c : Calculation) (s : Pass) (a : Place) (r : Range) (g : Grid Value) : Prop where
  entry : ∃ e, c.index.cell? a = some e
  size : 1 < g.size
  regular : g.Regular
  target : Pass.target? a g.rows g.cols = some r
  result : ∀ w, s.results[a]? = some w → w = .array g
  clear : ∀ x, (a.area r).contains x = true → x ≠ a → c.index.cell? x = none ∧ ∀ b, s.Over b x → b = a
  items : ∀ x u, (x, u) ∈ (Pass.covered a r).zip g.items → x ≠ a ∨ c.Lone a → s.spilled[x]? = some u

lemma cell?_eq_none (hx : c.index.cells.contains x = false) : c.index.cell? x = none := by
  rw [ExtTreeMap.contains_eq_isSome_getElem?, Option.isSome_eq_false_iff, Option.isNone_iff_eq_none] at hx
  exact hx

lemma laid_store (he : c.index.cell? p = some e) (hv : v.IsFlat)
    (hr : (s.store c.config.books c.index p v).anchors[p]? = some r) :
    ∃ g, v = .array g ∧ Laid c (s.store c.config.books c.index p v) p r g := by
  obtain ⟨g, rfl, hsize, ht, -, heq⟩ := Pass.store_of_some hr
  have hclear : ∀ x, (p.area r).contains x = true → x ≠ p →
      c.index.cells.contains x = false ∧ ∀ b, (s.store c.config.books c.index p (.array g)).Over b x → b = p :=
    fun x hx hxp => Pass.clear_store ⟨r, hr, hx⟩ hxp
  refine ⟨g, rfl, ⟨e, he⟩, hsize, hv.1, ht, fun w hw => ?_, fun x hx hxp => ?_, fun x u hxu _ => ?_⟩
  · rw [heq, Pass.results_record, if_pos rfl] at hw
    exact (Option.some.inj hw).symm
  · exact ⟨cell?_eq_none (hclear x hx hxp).1, (hclear x hx hxp).2⟩
  · rw [heq]
    exact Pass.spilled_place_of_mem hxu

lemma Laid.store (h : Laid c s a r g) (ha : s.anchors[a]? = some r) (hne : a ≠ p) (he : c.index.cell? p = some e)
    (hp : s.anchors[p]? = c.config.arrayRanges[p]?) :
    Laid c (s.store c.config.books c.index p v) a r g := by
  have hanchor : (s.store c.config.books c.index p v).anchors[a]? = some r := by rw [Pass.anchors_store hne, ha]
  -- The array of the stored cell stays away from what lies under another one.
  have hold : ∀ x, (a.area r).contains x = true → x ≠ a ∨ c.Lone a → ¬ s.Over p x := by
    rintro x hx hxa ⟨t, ht, hpx⟩
    by_cases hax : x = a
    · subst hax
      exact hne ((hxa.resolve_left fun h => h rfl) p ⟨t, hp ▸ ht, hpx⟩).symm
    · exact hne ((h.clear x hx hax).2 p ⟨t, ht, hpx⟩).symm
  have hnew : ∀ x, (a.area r).contains x = true → ¬ (s.store c.config.books c.index p v).Over p x := by
    intro x hx hpx
    by_cases hxp : x = p
    · subst hxp
      rw [(h.clear x hx hne.symm).1] at he
      cases he
    · exact hne ((Pass.clear_store hpx hxp).2 a ⟨r, hanchor, hx⟩)
  refine ⟨h.entry, h.size, h.regular, h.target, fun w hw => ?_, fun x hx hxa => ⟨(h.clear x hx hxa).1, fun b hb => ?_⟩,
    fun x u hxu hxa => ?_⟩
  · rw [Pass.results_store_of_ne hne] at hw
    exact h.result w hw
  · by_cases hbp : b = p
    · subst hbp
      exact absurd hb (hnew x hx)
    · exact (h.clear x hx hxa).2 b ((Pass.over_store hbp).1 hb)
  · have hx := Pass.mem_covered.1 (List.of_mem_zip hxu).1
    rw [Pass.spilled_store_of_not_over (hold x hx hxa) (hnew x hx)]
    exact h.items x u hxu hxa

/-- What a calculation has made of the arrays so far. Those that have not changed lie where they lay, and where no
changed array lies now there is what was there before, but for what changed arrays have left. -/
structure Laying (c : Calculation) (s : Pass) : Prop where
  untouched : c.Untouched s
  laid : ∀ (a : Place) (r : Range), a ∈ s.changedAnchors → s.anchors[a]? = some r → ∃ g, Laid c s a r g
  array : ∀ (p : Place) (g : Grid Value), s.results[p]? = some (.array g) → 1 < g.size → s.spillArrays = true →
    p ∈ s.changedAnchors ∧ ∃ r, s.anchors[p]? = some r
  left : ∀ x, (∀ a ∈ s.changedAnchors, ¬ s.Over a x) → (∃ a ∈ s.changedAnchors, c.config.Over a x) →
    s.spilled[x]? = none
  kept : ∀ x, (∀ a ∈ s.changedAnchors, ¬ s.Over a x ∧ ¬ c.config.Over a x) →
    s.spilled[x]? = (seededPass c.config c.options).spilled[x]?

lemma Untouched.over (h : c.Untouched s) (ha : a ∉ s.changedAnchors) : s.Over a x ↔ c.config.Over a x := by
  rw [Pass.Over, Config.Over, h a ha]

/-- Where no changed array lies afterwards, none lay before but perhaps that of the cell itself, which lay there
before the calculation. -/
lemma not_over_of_store (hp : s.anchors[p]? = c.config.arrayRanges[p]?)
    (hx : ∀ a ∈ (s.store c.config.books c.index p v).changedAnchors,
      ¬ (s.store c.config.books c.index p v).Over a x) :
    (s.Over p x → c.config.Over p x ∧ (s.store c.config.books c.index p v).spilled[x]? = none) ∧
      (¬ s.Over p x → (s.store c.config.books c.index p v).spilled[x]? = s.spilled[x]? ∧
        ∀ a ∈ s.changedAnchors, ¬ s.Over a x) := by
  have hnew : ¬ (s.store c.config.books c.index p v).Over p x := fun hpx =>
    hx p (Pass.changed_of_over (Or.inr hpx)) hpx
  constructor
  · rintro ⟨r, hr, hrx⟩
    refine ⟨⟨r, hp ▸ hr, hrx⟩, Pass.spilled_store_of_left hr hrx fun t ht => ?_⟩
    exact Bool.eq_false_iff.2 fun htx => hnew ⟨t, ht, htx⟩
  · refine fun hpx => ⟨Pass.spilled_store_of_not_over hpx hnew, fun a ha hax => ?_⟩
    by_cases hap : a = p
    · exact hpx (hap ▸ hax)
    · exact hx a (Pass.changed_store ha) ((Pass.over_store hap).2 hax)

lemma Laying.store (h : Laying c s) (he : c.index.cell? p = some e)
    (hp : s.anchors[p]? = c.config.arrayRanges[p]?) (hv : v.IsFlat) :
    Laying c (s.store c.config.books c.index p v) where
  untouched := h.untouched.store p v
  laid a r ha hr := by
    by_cases hap : a = p
    · subst hap
      obtain ⟨g, -, hg⟩ := laid_store he hv hr
      exact ⟨g, hg⟩
    · rw [Pass.mem_changedAnchors_store] at ha
      rw [Pass.anchors_store hap] at hr
      obtain ⟨g, hg⟩ := h.laid a r (ha.resolve_left fun h => hap h.1) hr
      exact ⟨g, hg.store hr hap he hp⟩
  array q g hq hg hs := by
    rw [Pass.spillArrays_store] at hs
    by_cases hqp : q = p
    · subst hqp
      obtain ⟨r, hr⟩ := Pass.anchors_store_of_array hs hg hq
      exact ⟨Pass.mem_changedAnchors_store.2 (Or.inl ⟨rfl, Or.inr (by rw [hr, Option.isSome_some])⟩), r, hr⟩
    · rw [Pass.results_store_of_ne hqp] at hq
      obtain ⟨hchanged, r, hr⟩ := h.array q g hq hg hs
      exact ⟨Pass.changed_store hchanged, r, by rw [Pass.anchors_store hqp, hr]⟩
  left x hx hleft := by
    obtain ⟨hover, hnot⟩ := not_over_of_store hp hx
    by_cases hpx : s.Over p x
    -- if the array of `p` lay there, storing has taken it away; otherwise nothing changes there
    · exact (hover hpx).2
    · obtain ⟨hspilled, hx⟩ := hnot hpx
      obtain ⟨a, ha, hax⟩ := hleft
      rw [hspilled]
      refine h.left x hx ⟨a, ?_, hax⟩
      refine (Pass.mem_changedAnchors_store.1 ha).resolve_left ?_
      rintro ⟨rfl, -⟩
      obtain ⟨r, hr, hrx⟩ := hax
      exact hpx ⟨r, hp.trans hr, hrx⟩
  kept x hx := by
    obtain ⟨hover, hnot⟩ := not_over_of_store hp fun a ha => (hx a ha).1
    have hpx : ¬ s.Over p x := fun hpx => (hx p (Pass.changed_of_over (Or.inl hpx))).2 (hover hpx).1
    obtain ⟨hspilled, hold⟩ := hnot hpx
    rw [hspilled]
    exact h.kept x fun a ha => ⟨hold a ha, (hx a (Pass.changed_store ha)).2⟩

lemma Laying.sweep {l : List Place} {d : Changes} (h : Laying c s) (hc : c.Plain d) (hl : c.index.Ordered l)
    (ha : Awaits c l s) : Laying c (c.sweep s l) := by
  induction l generalizing s with
  | nil => exact h
  | cons p l ih =>
    obtain ⟨e, he⟩ := hl.entry p List.mem_cons_self
    refine ih (s := c.settle s p) ?_ hl.tail (ha.settle hc hl)
    rw [settle_eq he]
    exact h.store he (ha.anchors p List.mem_cons_self) (Reading.value_flat (hc.index p e he).node)

lemma laying_firstPass {d : Changes} (hc : c.Plain d) : Laying c c.firstPass := by
  have hempty : ∀ a, a ∉ c.start.changedAnchors := fun a ha => by simp [changedAnchors_start] at ha
  refine Laying.sweep ⟨c.untouched_start, fun a r ha => absurd ha (hempty a), fun p g hg => ?_, fun x _ hx => ?_,
    fun x _ => ?_⟩
    hc hc.ordered_cells (awaits_start hc)
  · rw [results_start, Option.ite_none_right_eq_some] at hg
    exact nomatch hg.2
  · obtain ⟨a, ha, -⟩ := hx
    exact absurd ha (hempty a)
  · rw [(sameArrays_start c).spilled]

lemma laying_lastPass {d : Changes} (hc : c.Plain d) : Laying c c.lastPass := by
  have h := laying_firstPass hc
  have hsame := sameArrays_reopened c
  have hresults : ∀ (p : Place) (w : Value), c.reopened.results[p]? = some w → c.firstPass.results[p]? = some w := by
    intro p w hw
    rw [results_reopened hc, Option.ite_none_left_eq_some] at hw
    exact hw.2
  have hover : ∀ a x, c.reopened.Over a x ↔ c.firstPass.Over a x := fun a x => by
    rw [Pass.Over, Pass.Over, hsame.anchors]
  refine Laying.sweep ⟨?_, ?_, ?_, ?_, ?_⟩ hc ordered_again (awaits_reopened hc)
  · intro p hp
    rw [hsame.anchors]
    exact h.untouched p (hsame.changedAnchors ▸ hp)
  · intro a r ha hr
    rw [hsame.changedAnchors] at ha
    rw [hsame.anchors] at hr
    obtain ⟨g, hg⟩ := h.laid a r ha hr
    refine ⟨g, hg.entry, hg.size, hg.regular, hg.target, fun w hw => hg.result w (hresults a w hw), ?_, ?_⟩
    · simpa only [hover] using hg.clear
    · simpa only [hsame.spilled] using hg.items
  · intro p g hg hsize hs
    rw [hsame.spillArrays] at hs
    simpa only [hsame.changedAnchors, hsame.anchors] using h.array p g (hresults p _ hg) hsize hs
  · simpa only [hsame.changedAnchors, hsame.spilled, hover] using h.left
  · simpa only [hsame.changedAnchors, hsame.spilled, hover] using h.kept

/-! What the two rounds leave in the other tables. -/

lemma mem_changedAnchors_sweep {l : List Place} (h : a ∈ (c.sweep s l).changedAnchors) :
    a ∈ l ∨ a ∈ s.changedAnchors := by
  refine sweep_induction (P := fun t => a ∈ t.changedAnchors → a ∈ l ∨ a ∈ s.changedAnchors) Or.inr ?_ h
  intro t p e hp _ ih ha
  rcases Pass.mem_changedAnchors_store.1 ha with ⟨rfl, -⟩ | ha
  · exact Or.inl hp
  · exact ih ha

lemma changedAnchors_sweep {l : List Place} (h : a ∈ s.changedAnchors) : a ∈ (c.sweep s l).changedAnchors :=
  sweep_induction (P := fun t => a ∈ t.changedAnchors) h fun _ _ _ _ _ ha => Pass.changed_store ha

lemma changed_of_mem_sweep {l : List Place} (hl : c.index.Ordered l) (hp : p ∈ l)
    (hr : (c.sweep s l).anchors[p]? = some r) : p ∈ (c.sweep s l).changedAnchors := by
  obtain ⟨done, rest, rfl⟩ := List.append_of_mem hp
  obtain ⟨e, he⟩ := hl.entry p hp
  have hsweep : c.sweep s (done ++ p :: rest) = c.sweep (c.settle (c.sweep s done) p) rest := sweep_append
  rw [hsweep, anchors_sweep hl.behind.not_mem, settle_eq he] at hr
  rw [hsweep, settle_eq he]
  exact changedAnchors_sweep (Pass.mem_changedAnchors_store.2 (Or.inl ⟨rfl, Or.inr (by rw [hr, Option.isSome_some])⟩))

variable {d : Changes}

lemma mem_cycles_lastPass : p ∈ c.lastPass.cycles ↔ p ∈ c.plan.cycles := by
  rw [lastPass, cycles_sweep, reopened, Pass.cycles_foldl_invalidate, cycles_firstPass]

lemma results_lastPass_of_not_mem (hc : c.Plain d) (hp : p ∉ c.calculated c.again) :
    c.lastPass.results[p]? = if p ∈ c.plan.cycles then some (.error .cycle) else none := by
  rw [mem_calculated, not_or] at hp
  rw [lastPass, results_sweep hp.2, results_reopened hc, if_neg hp.2, firstPass, results_sweep hp.1, results_start]

lemma calculated_of_changed (ha : a ∈ c.lastPass.changedAnchors) : a ∈ c.calculated c.again := by
  rw [mem_calculated]
  rcases mem_changedAnchors_sweep ha with ha | ha
  · exact Or.inr ha
  · rw [(sameArrays_reopened c).changedAnchors] at ha
    rcases mem_changedAnchors_sweep ha with ha | ha
    · exact Or.inl ha
    · simp [changedAnchors_start] at ha

lemma changed_of_calculated (hc : c.Plain d) (hp : p ∈ c.calculated c.again)
    (hr : c.lastPass.anchors[p]? = some r) : p ∈ c.lastPass.changedAnchors := by
  by_cases hagain : p ∈ c.again
  · exact changed_of_mem_sweep ordered_again hagain hr
  · have hp := (mem_calculated.1 hp).resolve_right hagain
    refine changedAnchors_sweep ?_
    rw [(sameArrays_reopened c).changedAnchors]
    rw [lastPass, anchors_sweep hagain, (sameArrays_reopened c).anchors] at hr
    exact changed_of_mem_sweep hc.ordered_cells hp hr

/-! After the report is committed. -/

variable {again : List Place} {others : ItemMap Value}

lemma arrayValues_commit_of_over (ha : a ∈ s.changedAnchors) (hx : s.Over a x) {u : Value}
    (hu : s.spilled[x]? = some u) :
    (c.config.commit (c.report s again others)).arrayValues[x]? = some u.toScalar := by
  obtain ⟨r, hr, hrx⟩ := hx
  rw [Config.getElem?_arrayValues_commit, report_arrayValues.2 ⟨⟨a, r, ha, hr, hrx⟩, rfl⟩, hu]
  rfl

lemma arrayValues_commit_of_not_over (hx : ∀ a ∈ s.changedAnchors, ¬ s.Over a x) :
    (c.config.commit (c.report s again others)).arrayValues[x]? = (c.config.kept (c.report s again others))[x]? := by
  have hnone : (c.report s again others).arrayValues[x]? = none := by
    rw [Option.eq_none_iff_forall_ne_some]
    intro v hv
    obtain ⟨⟨a, r, ha, hr, hrx⟩, -⟩ := report_arrayValues.1 hv
    exact hx a ha ⟨r, hr, hrx⟩
  rw [Config.getElem?_arrayValues_commit, hnone, Option.none_or]

lemma Laying.spilled_seededPass (h : Laying c s) (hf : s.Flat) {o : Options}
    (hx : ∀ a ∈ s.changedAnchors, s.Over a x → ∃ u, s.spilled[x]? = some u) :
    (seededPass (c.config.commit (c.report s again others)) o).spilled[x]? = s.spilled[x]? := by
  refine Option.ext fun v => ?_
  rw [Calculation.spilled_seededPass, arrayRanges_commit h.untouched]
  -- where a changed array lies its items have been recorded; elsewhere stays what no changed array has left
  by_cases hover : ∃ a ∈ s.changedAnchors, s.Over a x
  · obtain ⟨a, ha, hax⟩ := hover
    obtain ⟨u, hu⟩ := hx a ha hax
    rw [arrayValues_commit_of_over ha hax hu, hu]
    have hitem := (hf.spilled x u hu).ofScalar_toScalar
    constructor
    · rintro ⟨-, w, hw, rfl⟩
      obtain rfl := Option.some.inj hw
      rw [hitem]
    · intro hv
      obtain rfl := Option.some.inj hv
      exact ⟨⟨a, hax⟩, _, rfl, hitem⟩
  · have hnot : ∀ a ∈ s.changedAnchors, ¬ s.Over a x := fun a ha hax => hover ⟨a, ha, hax⟩
    rw [arrayValues_commit_of_not_over hnot, Config.getElem?_kept]
    split
    · rename_i hleft
      obtain ⟨a, ha, hax⟩ := hleft
      rw [h.left x hnot ⟨a, mem_replaced.1 ha, hax⟩]
      simp
    · rename_i hleft
      have hleft : ∀ a ∈ s.changedAnchors, ¬ c.config.Over a x := fun a ha hax =>
        hleft ⟨a, mem_replaced.2 ha, hax⟩
      rw [h.kept x fun a ha => ⟨hnot a ha, hleft a ha⟩, Calculation.spilled_seededPass]
      refine and_congr_left' ⟨?_, ?_⟩
      · rintro ⟨a, hax⟩
        have ha : a ∉ s.changedAnchors := fun ha => hnot a ha hax
        exact ⟨a, (h.untouched.over ha).1 hax⟩
      · rintro ⟨a, hax⟩
        have ha : a ∉ s.changedAnchors := fun ha => hleft a ha hax
        exact ⟨a, (h.untouched.over ha).2 hax⟩

end Calculation

end Spreadsheet
