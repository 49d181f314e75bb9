import Spreadsheet.Proofs.Engine.Commit
import Spreadsheet.Proofs.Engine.Solution

/-! After a calculation every formula cell holds what it should, however the workbooks came to be as they
are. -/

namespace Spreadsheet

open Std Dependency Formula Relation

lemma transGen_of_closed {α : Type} {R R' : α → α → Prop} {U : α → Prop}
    (hstep : ∀ x y, U x → R x y → R' x y ∧ U y) {a b : α} (ha : U a) (h : TransGen R a b) :
    TransGen R' a b ∧ U b := by
  induction h with
  | single hr => exact ⟨.single (hstep _ _ ha hr).1, (hstep _ _ ha hr).2⟩
  | tail _ hr ih => exact ⟨ih.1.tail (hstep _ _ ih.2 hr).1, (hstep _ _ ih.2 hr).2⟩

namespace Dependency.Index

variable {r : Registry} {i i' : Index} {features : List Feature} {d d' : Changes} {p q : Place} {e : Entry}

/-- Results land in the cells of their formulas. -/
def Single (i : Index) : Prop := ∀ p e, i.cell? p = some e → e.output = p.region

lemma Plain.contains_of_reads (h : i.Plain r) (hi : i.Single) (he : i.cell? p = some e) (hr : i.Reads p q) :
    ∃ s ∈ referencesOf p.book p.sheet e.node, s.contains q = true := by
  obtain ⟨e', f, he', hf, s, hs, ho⟩ := hr
  obtain rfl := Option.some.inj (he.symm.trans he')
  rw [(h p e he).references] at hs
  rw [hi q f hf, Region.overlaps_region] at ho
  exact ⟨s, hs, ho⟩

/-- One cell was replaced, and its place marked as changed. -/
structure Edited (r : Registry) (i i' : Index) (d d' : Changes) (p : Place) : Prop where
  plain : i.Plain r
  plain' : i'.Plain r
  single : i.Single
  single' : i'.Single
  cell? : ∀ q, q ≠ p → i'.cell? q = i.cell? q
  other? : ∀ k, i.other? k = none
  changes : d' = { d with ranges := d.ranges ++ [p.region] }
  excluded : d.excluded = ∅

namespace Edited

variable (h : Edited r i i' d d' p)

include h

lemma not_contains (he : i'.cell? q = some e) (hq : .cell q ∉ dirty i' features d') :
    ∀ s ∈ referencesOf q.book q.sheet e.node, s.contains p = false := by
  intro s hs
  by_contra hc
  refine hq (closed_dirty.cell q e he (by simp [h.changes, h.excluded]) (Or.inr (Or.inr ?_)))
  refine ⟨p.region, Or.inl (by simp [h.changes]), s, ?_, ?_⟩
  · rwa [(h.plain' q e he).references]
  · rw [Region.overlaps_region]
    simpa using hc

lemma ne_of_not_dirty (he : i'.cell? q = some e) (hq : .cell q ∉ dirty i' features d') : q ≠ p := by
  rintro rfl
  refine hq (closed_dirty.cell q e he (by simp [h.changes, h.excluded]) (Or.inr (Or.inl ?_)))
  refine ⟨q.region, by simp [h.changes], ?_⟩
  rw [h.single' q e he, Region.overlaps_region]
  exact Place.contains_region.2 rfl

lemma written {w : Region} (hw : Written i features d ({t | t ∈ dirty i' features d'} ∪ {.cell p}) w) :
    Written i' features d' {t | t ∈ dirty i' features d'} w := by
  rcases hw with hw | ⟨q, e, he, hq, rfl⟩ | ⟨n, f, hf, hn, hw⟩
  · exact Or.inl (by simp [h.changes, hw])
  · by_cases hp : q = p
    · subst hp
      exact Or.inl (by simp [h.changes, h.single q e he])
    · refine Or.inr (Or.inl ⟨q, e, (h.cell? q hp).trans he, hq.resolve_right ?_, rfl⟩)
      simp [hp]
  · exact Or.inr (Or.inr ⟨n, f, hf, hn.resolve_right (by simp), hw⟩)

lemma touched {reads : List Region} (ht : Touched i features d ({t | t ∈ dirty i' features d'} ∪ {.cell p}) reads) :
    Touched i' features d' {t | t ∈ dirty i' features d'} reads := by
  obtain ⟨w, hw, hr⟩ := ht
  exact ⟨w, h.written hw, hr⟩

lemma dirty_subset : {t | t ∈ dirty i features d} ⊆ {t | t ∈ dirty i' features d'} ∪ {.cell p} := by
  refine Dependency.dirty_subset ⟨?_, ?_, ?_⟩
  · intro q e he hx hd
    by_cases hq : q = p
    · exact Or.inr (by simp [hq])
    · refine Or.inl (closed_dirty.cell q e ((h.cell? q hq).trans he) (by simpa [h.changes] using hx) ?_)
      rcases hd with hd | ⟨w, hw, ho⟩ | hd
      · exact Or.inl (by simpa [h.changes, Entry.Mentions] using hd)
      · exact Or.inr (Or.inl ⟨w, by simp [h.changes, hw], ho⟩)
      · exact Or.inr (Or.inr (h.touched hd))
  · intro k e hk
    rw [h.other? k] at hk
    cases hk
  · intro n f hf hd
    refine Or.inl (closed_dirty.feature n f hf ?_)
    rcases hd with hd | hd
    · exact Or.inl (by simpa [h.changes] using hd)
    · exact Or.inr (h.touched hd)

lemma not_dirty (he : i'.cell? q = some e) (hq : .cell q ∉ dirty i' features d') : .cell q ∉ dirty i features d := by
  intro hd
  have hp := h.ne_of_not_dirty he hq
  rcases h.dirty_subset hd with hd | hd
  · exact hq hd
  · exact hp (by simpa using hd)

lemma reads_iff (he : i'.cell? q = some e) (hq : .cell q ∉ dirty i' features d') (x : Place) :
    (i.Reads q x ↔ i'.Reads q x) ∧ (i'.Reads q x → .cell x ∉ dirty i' features d') := by
  have hne := h.ne_of_not_dirty he hq
  have he' : i.cell? q = some e := (h.cell? q hne).symm.trans he
  have hnext : i'.Reads q x → .cell x ∉ dirty i' features d' := fun hr hd =>
    hq (dirty_of_reads hr (by simp [h.changes, h.excluded]) hd)
  refine ⟨⟨fun hr => ?_, fun hr => ?_⟩, hnext⟩
  · obtain ⟨s, hs, hx⟩ := h.plain.contains_of_reads h.single he' hr
    have hxp : x ≠ p := by
      rintro rfl
      simp [h.not_contains he hq s hs] at hx
    obtain ⟨_, f, _, hf, _⟩ := hr
    exact h.plain'.reads he ((h.cell? x hxp).trans hf) hs hx
  · obtain ⟨s, hs, hx⟩ := h.plain'.contains_of_reads h.single' he hr
    have hxp : x ≠ p := by
      rintro rfl
      simp [h.not_contains he hq s hs] at hx
    obtain ⟨_, f, _, hf, _⟩ := hr
    exact h.plain.reads he' ((h.cell? x hxp).symm.trans hf) hs hx

lemma onCycle_iff (he : i'.cell? q = some e) (hq : .cell q ∉ dirty i' features d') :
    i.OnCycle ∅ q ↔ i'.OnCycle ∅ q := by
  have hclean : ∀ x y, (∃ f, i'.cell? x = some f) ∧ .cell x ∉ dirty i' features d' → i'.Reads x y →
      (∃ f, i'.cell? y = some f) ∧ .cell y ∉ dirty i' features d' := by
    rintro x y ⟨⟨f, hf⟩, hx⟩ hr
    have hy := (h.reads_iff hf hx y).2 hr
    obtain ⟨_, g, _, hg, _⟩ := hr
    exact ⟨⟨g, hg⟩, hy⟩
  constructor
  · intro hc
    refine (transGen_of_closed (U := fun x => (∃ f, i'.cell? x = some f) ∧ .cell x ∉ dirty i' features d')
      ?_ ⟨⟨e, he⟩, hq⟩ hc).1
    rintro x y ⟨⟨f, hf⟩, hx⟩ hr
    have hr' := (h.reads_iff hf hx y).1.1 hr.1
    exact ⟨⟨hr', hr.2⟩, hclean x y ⟨⟨f, hf⟩, hx⟩ hr'⟩
  · intro hc
    refine (transGen_of_closed (U := fun x => (∃ f, i'.cell? x = some f) ∧ .cell x ∉ dirty i' features d')
      ?_ ⟨⟨e, he⟩, hq⟩ hc).1
    rintro x y ⟨⟨f, hf⟩, hx⟩ hr
    exact ⟨⟨(h.reads_iff hf hx y).1.2 hr.1, hr.2⟩, hclean x y ⟨⟨f, hf⟩, hx⟩ hr.1⟩

lemma holdsBut {ρ ρ' : Reading} (hsheet : ρ.hasSheet = ρ'.hasSheet) (hcell : ∀ q, q ≠ p → ρ.cell q = ρ'.cell q)
    (hbefore : i.HoldsBut r ρ {q | .cell q ∈ dirty i features d}) :
    i'.HoldsBut r ρ' {q | .cell q ∈ dirty i' features d'} := by
  intro q e he hq
  have hne := h.ne_of_not_dirty he hq
  have hholds := hbefore q e ((h.cell? q hne).symm.trans he) (h.not_dirty he hq)
  have hcycle := h.onCycle_iff he hq
  have hagree : ∀ s ∈ referencesOf q.book q.sheet e.node, ∀ x, s.contains x = true → ρ.cell x = ρ'.cell x := by
    intro s hs x hx
    refine hcell x ?_
    rintro rfl
    simp [h.not_contains he hq s hs] at hx
  have hholds := hholds.congr (h.plain' q e he).node hagree hsheet (hcell q hne)
  exact ⟨fun hc => hholds.cyclic (hcycle.2 hc), fun hc => hholds.acyclic (mt hcycle.1 hc)⟩

end Edited

end Dependency.Index

namespace Engine

variable {e : Engine}

/-- An engine in which nothing spills, with the values of all formulas right that are not to be calculated next. -/
structure Still (e : Engine) : Prop extends e.Plain where
  spillArrays : e.options.spillArrays = false
  arrayRanges : e.config.arrayRanges = ∅
  holds : e.index.HoldsBut e.registry e.config.books.reading {p | .cell p ∈ dirty e.index e.config.features e.pending}

lemma Plain.single (h : e.Plain) (hr : e.config.arrayRanges = ∅) : e.index.Single := by
  intro p x hx
  rw [h.cell?, Option.map_eq_some_iff] at hx
  obtain ⟨f, -, rfl⟩ := hx
  simp [Entry.ofPlain, Config.output, hr]

lemma still_load {d : Dataset} (hd : d.Bare) (hforce : d.force = true) (hspill : e.options.spillArrays = false)
    (h : (e.load d).Plain) : (e.load d).Still where
  toPlain := h
  spillArrays := hspill
  arrayRanges := Config.arrayRanges_load hd
  holds := by
    intro p x hx hp
    refine absurd (closed_dirty.cell p x hx ?_ (Or.inl (Or.inl ?_))) hp
    · change p ∉ (Config.load d).changes.excluded
      simp [Config.excluded_load hd.toOwn]
    · exact hforce

lemma still_setCell (h : e.Still) {p : Place} {cell : Cell} (hs : (e.config.books.sheet? p.book p.sheet).isSome)
    (htext : ∀ f, cell.formula = some f → PlainText e.registry e.config.names p f.text) :
    ({ e with config := e.config.setCell p cell }.reindex).Still := by
  have hplain := plain_setCell h.toPlain hs htext
  have hedited : Index.Edited e.registry e.index ((e.config.setCell p cell).index e.registry) e.pending
      { e.pending with ranges := e.pending.ranges ++ [p.region] } p := by
    refine ⟨h.index, hplain.index, h.single h.arrayRanges, hplain.single h.arrayRanges, ?_, h.other?, rfl, h.excluded⟩
    intro q hq
    have hcell := hplain.cell? q
    simp only [reindex, Config.setCell, Books.formula?_setCell, if_neg hq] at hcell
    exact hcell.trans (h.cell? q).symm
  refine ⟨hplain, h.spillArrays, h.arrayRanges, hedited.holdsBut ?_ ?_ h.holds⟩
  · exact funext₂ (Books.isSome_sheet?_congr (Books.outline_setCell cell).symm)
  · intro q hq
    simp only [Books.reading, Config.setCell, reindex, Books.value?_setCell, if_neg hq]

lemma still_calculation (h : e.Still) : e.calculation.Still e.pending where
  toPlain := plain_calculation h.toPlain
  spillArrays := h.spillArrays
  arrayRanges := h.arrayRanges

lemma holds_report (h : e.Still) :
    e.index.HoldsBut e.registry (e.report.applyTo e.config.books).reading ∅ := by
  have hc := still_calculation h
  have hhalfway := Calculation.halfway_lastPass hc
  have hsheet : ∀ p x, e.calculation.index.cell? p = some x →
      (e.calculation.config.books.sheet? p.book p.sheet).isSome := by
    intro p x hx
    have hx : e.index.cell? p = some x := hx
    rw [h.cell?, Option.map_eq_some_iff] at hx
    obtain ⟨f, hf, rfl⟩ := hx
    exact Books.isSome_sheet?_of_formula? hf
  have hread := Calculation.reading_applyTo hhalfway hc.toPlain hsheet
  have hholds := Calculation.holds_reading hhalfway hc.toPlain h.excluded h.holds
  rw [← hread] at hholds
  rw [report, Calculation.again_still hc]
  exact hholds

/-- Calculating leaves the inputs alone, and makes every formula cell hold what it should. -/
lemma still_calculate (h : e.Still) : (∃ r, (e.calculate false).1 = .completed r) ∧ (e.calculate false).2.Still ∧
    (e.calculate false).2.config.books.SameInputs e.config.books ∧
    (e.calculate false).2.index.HoldsBut (e.calculate false).2.registry
      (e.calculate false).2.config.books.reading ∅ ∧
    (e.calculate false).2.config.names = e.config.names ∧ (e.calculate false).2.registry = e.registry := by
  obtain ⟨host, hcalculate, hplain⟩ := calculate_plain h.toPlain
  have hconfig : ({ e with host }.commit e.report).config = e.config.commit e.report := config_commit
  have hregistry : ({ e with host }.commit e.report).registry = e.registry := registry_commit
  have hoptions : ({ e with host }.commit e.report).options = e.options := options_commit
  rw [hcalculate]
  generalize { e with host }.commit e.report = x at hplain hconfig hregistry hoptions ⊢
  have hc := still_calculation h
  have hhalfway := Calculation.halfway_lastPass hc
  have hsame : (e.config.commit e.report).books.SameInputs e.config.books :=
    Report.sameInputs_applyTo fun p hp => values_report h.toPlain hp
  have hranges : (e.config.commit e.report).arrayRanges = ∅ :=
    (Calculation.arrayRanges_commit (c := e.calculation) Calculation.untouched_lastPass).trans hhalfway.still.anchors
  have hnames : x.config.names = e.config.names := by rw [hconfig, Config.names_commit]
  have hholds : x.index.HoldsBut x.registry x.config.books.reading ∅ := by
    have hbooks : x.config.books = e.report.applyTo e.config.books := by rw [hconfig, Config.books_commit]
    have hcell : ∀ p, x.index.cell? p = e.index.cell? p := by
      intro p
      have houtput : x.config.output p = e.config.output p := by
        rw [Config.output, Config.output, hconfig, hranges, h.arrayRanges]
      rw [hplain.cell?, h.cell?, hregistry, houtput, hnames, hconfig, hsame.formula?]
    rw [hregistry, hbooks]
    exact (holds_report h).congr hcell
  refine ⟨⟨_, rfl⟩, ⟨hplain, ?_, ?_, ?_⟩, ?_, hholds, ?_, hregistry⟩
  · rw [hoptions, h.spillArrays]
  · rw [hconfig, hranges]
  · exact fun p y hy _ => hholds p y hy (by simp)
  · rwa [hconfig]
  · exact hnames

end Engine

end Spreadsheet
