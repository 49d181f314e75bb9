import Spreadsheet.Proofs.Engine.Plain

/-! A committed report leaves the arrays of the pass behind. -/

namespace Spreadsheet

open Std Dependency Formula

namespace Calculation

variable {c : Calculation} {s : Pass} {again : List Place} {others : ItemMap Value} {p x : Place} {v : Scalar}

lemma report_arrayRanges :
    (c.report s again others).arrayRanges[p]? = if p ∈ s.changedAnchors then s.anchors[p]? else none := by
  have hmem : ∀ {y : Place × Range}, y ∈ s.changedAnchors.toList.filterMap (fun p => s.anchors[p]?.map (p, ·)) ↔
      y.1 ∈ s.changedAnchors ∧ s.anchors[y.1]? = some y.2 := by
    rintro ⟨q, r⟩
    simp only [List.mem_filterMap, ExtTreeSet.mem_toList, Option.map_eq_some_iff, Prod.mk.injEq]
    constructor
    · rintro ⟨q, hq, r, hr, rfl, rfl⟩
      exact ⟨hq, hr⟩
    · rintro ⟨hq, hr⟩
      exact ⟨q, hq, r, hr, rfl, rfl⟩
  have hsame : ∀ y ∈ s.changedAnchors.toList.filterMap (fun p => s.anchors[p]?.map (p, ·)),
      ∀ z ∈ s.changedAnchors.toList.filterMap (fun p => s.anchors[p]?.map (p, ·)), y.1 = z.1 → y.2 = z.2 := by
    intro y hy z hz hyz
    have hy := (hmem.1 hy).2
    rw [hyz, (hmem.1 hz).2] at hy
    exact (Option.some.inj hy).symm
  refine Option.ext fun r => (Table.mem_of_foldl_insert (fun y : Place × Range => y.1) hsame p r).trans ?_
  rw [Option.ite_none_right_eq_some]
  constructor
  · rintro ⟨y, hy, rfl, rfl⟩
    exact hmem.1 hy
  · intro hp
    exact ⟨(p, r), hmem.2 hp, rfl, rfl⟩

lemma mem_clearedArrays :
    p ∈ (c.report s again others).clearedArrays ↔ p ∈ s.changedAnchors ∧ s.anchors[p]? = none := by
  simp only [report, List.mem_filter, ExtTreeSet.mem_toList, Bool.not_eq_true', ExtTreeMap.contains_eq_isSome_getElem?,
    Option.isSome_eq_false_iff, Option.isNone_iff_eq_none]

lemma report_arrayValues : (c.report s again others).arrayValues[x]? = some v ↔
    (∃ a r, a ∈ s.changedAnchors ∧ s.anchors[a]? = some r ∧ (a.area r).contains x = true) ∧
      (s.spilled[x]?.map Value.toScalar).getD .empty = v := by
  have hflat : (c.report s again others).arrayValues =
      ((s.changedAnchors.toList.filterMap fun p => s.anchors[p]?.map (p, ·)).flatMap fun y =>
        Pass.covered y.1 y.2).foldl (fun m p => m.insert p ((s.spilled[p]?.map Value.toScalar).getD .empty)) ∅ := by
    rw [List.foldl_flatMap]
    rfl
  rw [hflat]
  refine (Table.mem_of_foldl_insert id (fun y _ z _ hyz => by rw [show y = z from hyz]) x v).trans ?_
  simp only [List.mem_flatMap, List.mem_filterMap, ExtTreeSet.mem_toList, Option.map_eq_some_iff, Pass.mem_covered]
  constructor
  · rintro ⟨x, ⟨_, ⟨a, ha, r, hr, rfl⟩, hx⟩, rfl, hv⟩
    exact ⟨⟨a, r, ha, hr, hx⟩, hv⟩
  · rintro ⟨⟨a, r, ha, hr, hx⟩, hv⟩
    exact ⟨x, ⟨_, ⟨a, ha, r, hr, rfl⟩, hx⟩, rfl, hv⟩

end Calculation

/-- The anchors whose arrays a report replaces or clears. -/
def Report.replaced (r : Report) : List Place := r.clearedArrays ++ r.arrayRanges.keys

namespace Config

variable {c : Config} {r : Report} {p x : Place}

/-- The spilled values that a report leaves alone. -/
def kept (c : Config) (r : Report) : PlaceMap Scalar :=
  r.replaced.foldl (fun values anchor =>
    match c.arrayRanges[anchor]? with
    | some old => (Pass.covered anchor old).foldl (fun m p => m.erase p) values
    | none => values) c.arrayValues

/-- The configuration with a report written into it. -/
def commit (c : Config) (r : Report) : Config :=
  { c with
    books := r.applyTo c.books
    arrayRanges := r.arrayRanges.foldl (fun m p range => m.insert p range)
      (r.replaced.foldl (fun m p => m.erase p) c.arrayRanges)
    arrayValues := r.arrayValues.foldl (fun m p v => m.insert p v) (c.kept r)
    formats := r.formats.foldl (fun m p s => m.insert p s) c.formats
    changes := { excluded := c.changes.excluded }
    dirtyBooks := [] }

lemma books_commit : (c.commit r).books = r.applyTo c.books := rfl

lemma names_commit : (c.commit r).names = c.names := rfl

lemma formulas_commit : (c.commit r).formulas = c.formulas := rfl

lemma getElem?_kept : (c.kept r)[x]? =
    if ∃ a ∈ r.replaced, ∃ t, c.arrayRanges[a]? = some t ∧ (a.area t).contains x = true then none
    else c.arrayValues[x]? := by
  have hflat : c.kept r = (r.replaced.flatMap fun a => (c.arrayRanges[a]?.map (Pass.covered a)).getD []).foldl
      (fun m p => m.erase p) c.arrayValues := by
    rw [kept, List.foldl_flatMap]
    congr 1
    funext values a
    cases c.arrayRanges[a]? <;> rfl
  rw [hflat, Table.getElem?_foldl_erase]
  refine if_congr ?_ rfl rfl
  simp only [List.mem_flatMap]
  refine exists_congr fun a => and_congr_right fun _ => ?_
  cases c.arrayRanges[a]? <;> simp [Pass.mem_covered]

lemma getElem?_arrayRanges_commit : (c.commit r).arrayRanges[p]? =
    r.arrayRanges[p]?.or (if p ∈ r.replaced then none else c.arrayRanges[p]?) := by
  rw [commit, Table.getElem?_foldl_over, Table.getElem?_foldl_erase]

lemma getElem?_arrayValues_commit : (c.commit r).arrayValues[x]? = r.arrayValues[x]?.or (c.kept r)[x]? := by
  rw [commit, Table.getElem?_foldl_over]

end Config

namespace Calculation

variable {c : Calculation} {s : Pass} {again : List Place} {others : ItemMap Value} {p : Place} {d : Changes}

lemma mem_replaced : p ∈ (c.report s again others).replaced ↔ p ∈ s.changedAnchors := by
  rw [Report.replaced, List.mem_append, mem_clearedArrays, ExtTreeMap.mem_keys, ← ExtTreeMap.isSome_getElem?_iff_mem,
    report_arrayRanges]
  cases s.anchors[p]? <;> simp

lemma arrayRanges_commit (h : c.Untouched s) :
    (c.config.commit (c.report s again others)).arrayRanges = s.anchors := by
  refine ExtTreeMap.ext_getElem? fun p => ?_
  rw [Config.getElem?_arrayRanges_commit, report_arrayRanges]
  simp only [mem_replaced]
  split
  · exact Option.or_none
  · rename_i hp
    rw [Option.none_or, h p hp]

lemma anchored_sweep {l : List Place}
    (h : ∀ (a : Place) (r : Range), s.anchors[a]? = some r → (a.area r).contains a = true) (a : Place) (r : Range) :
    (c.sweep s l).anchors[a]? = some r → (a.area r).contains a = true := by
  refine sweep_induction (P := fun t => t.anchors[a]? = some r → (a.area r).contains a = true) (h a r) ?_
  intro t p e _ _ ih hr
  by_cases hap : a = p
  · subst hap
    exact Pass.contains_of_anchors_store hr
  · rw [Pass.anchors_store hap] at hr
    exact ih hr

lemma anchored_commit (h : c.config.Anchored) :
    (c.config.commit (c.report c.lastPass c.again others)).Anchored := by
  intro a r hr
  rw [arrayRanges_commit untouched_lastPass] at hr
  refine anchored_sweep (fun a r hr => ?_) a r hr
  rw [(sameArrays_reopened c).anchors] at hr
  refine anchored_sweep (fun a r hr => ?_) a r hr
  rw [anchors_start] at hr
  exact h a r hr

lemma exists_entry (hc : c.Plain d) (hp : p ∈ c.plan.cycles ∨ p ∈ c.calculated c.again) :
    ∃ e, c.index.cell? p = some e := by
  rcases hp with hp | hp
  · rw [hc.plan] at hp
    exact (dirty_cell (Plan.mem_cycles.1 hp).1).2
  · exact (mem_calculated.1 hp).elim (hc.ordered_cells.entry p) (ordered_again.entry p)

end Calculation

namespace Engine

variable {e : Engine} {r : Report} {p x : Place}

lemma commit_eq : e.commit r =
    if r.replaced.isEmpty then { e with config := e.config.commit r }
    else { e with config := e.config.commit r }.reindex := rfl

lemma config_commit : (e.commit r).config = e.config.commit r := by
  rw [commit_eq]
  split <;> rfl

lemma registry_commit : (e.commit r).registry = e.registry := by
  rw [commit_eq]
  split <;> rfl

lemma commit_host (host : Host) : { e with host }.commit r = { e.commit r with host } := by
  rw [commit_eq, commit_eq]
  split <;> rfl

lemma options_commit : (e.commit r).options = e.options := by
  rw [commit_eq]
  split <;> rfl

lemma output_commit (hr : r.replaced = []) (p : Place) : (e.config.commit r).output p = e.config.output p := by
  obtain ⟨-, hkeys⟩ := List.append_eq_nil_iff.1 hr
  have hranges : r.arrayRanges[p]? = none := by
    rw [ExtTreeMap.keys_eq_nil_iff.1 hkeys, ExtTreeMap.getElem?_empty]
  rw [Config.output, Config.output, Config.getElem?_arrayRanges_commit, hranges, hr, Option.none_or,
    if_neg List.not_mem_nil]

lemma plain_commit (h : e.Plain) (hr : ∀ p, e.config.books.formula? p = none → r.values[p]? = none)
    (ha : (e.config.commit r).Anchored) : (e.commit r).Plain := by
  have hsame : (e.config.commit r).books.SameInputs e.config.books := Report.sameInputs_applyTo hr
  have hformulas : ∀ p, (e.config.commit r).formulas[p]? = (e.config.commit r).books.formula? p := fun p =>
    (h.formulas p).trans (hsame.formula? p).symm
  have htext : ∀ p f, (e.config.commit r).books.formula? p = some f →
      PlainText e.registry (e.config.commit r).names p f.text := fun p f hf =>
    h.text p f ((hsame.formula? p).symm.trans hf)
  have hnames := h.names.trans (Books.nameTable_congr hsame.outline.symm)
  rw [commit_eq]
  split
  · rename_i hempty
    refine ⟨h.excluded, h.others, hnames, hformulas, htext, ha, fun p => ?_, h.other?⟩
    simp only [hsame.formula?, output_commit (List.isEmpty_iff.1 hempty)]
    exact h.cell? p
  · exact ⟨h.excluded, h.others, hnames, hformulas, htext, ha, cell?_index_plain hformulas htext,
      Config.other?_index h.others⟩

lemma values_report (h : e.Plain) {p : Place} (hp : e.config.books.formula? p = none) : e.report.values[p]? = none := by
  rw [Option.eq_none_iff_forall_ne_some]
  intro v hv
  obtain ⟨hmem, -⟩ := Calculation.report_values.1 hv
  obtain ⟨x, hx⟩ := Calculation.exists_entry (plain_calculation h) hmem
  have hx : e.index.cell? p = some x := hx
  rw [h.cell?, hp] at hx
  cases hx

lemma calculate_plain (h : e.Plain) : ∃ host, e.calculate false = (.completed e.report, { e with host }.commit e.report) ∧
    ({ e with host }.commit e.report).Plain := by
  obtain ⟨host, hrun⟩ := calculate_completed h
  refine ⟨host, hrun, plain_commit ⟨h.excluded, h.others, h.names, h.formulas, h.text, h.anchored, h.cell?, h.other?⟩
    (fun p hp => values_report h hp) ?_⟩
  have ha : (e.config.commit e.report).Anchored := Calculation.anchored_commit (c := e.calculation) h.anchored
  exact ha

end Engine

end Spreadsheet
