import Spreadsheet.Proofs.Engine.Agreement
import Spreadsheet.Proofs.Engine.Reach

/-! Arrays that something stands in the way of. Such an array is `#SPILL!` until its cell is calculated again, and the
cells it would cover do not lead to it: when one of them is emptied, nothing is calculated on that account. Once the
cell is calculated again, by whatever leads to it, the array spills if nothing stands in its way any more. -/

namespace Spreadsheet

open Std Dependency Formula Relation

namespace Dependency

variable {i : Index} {features : List Feature} {d : Changes} {p : Place}

/-- What has changed concerns neither the formula of a cell, nor where its result lies, nor a feature. -/
structure Unheard (i : Index) (features : List Feature) (d : Changes) : Prop where
  cell : ∀ p e, i.cell? p = some e → p ∉ d.excluded → ¬ e.Mentions d p.book ∧
    ∀ w ∈ d.ranges, e.output.overlaps w = false ∧ ∀ u ∈ e.references, u.overlaps w = false
  feature : ∀ f ∈ features, f.key ∉ d.features ∧ ∀ w ∈ d.ranges, ∀ u ∈ f.dependencies, u.overlaps w = false

lemma Unheard.not_dirty (h : Unheard i features d) : .cell p ∉ dirty i features d := by
  have hread : ∀ reads : List Region, (∀ w ∈ d.ranges, ∀ u ∈ reads, u.overlaps w = false) →
      ¬ Touched i features d {t | ∃ k, t = .other k} reads := by
    rintro reads hreads ⟨w, hw | ⟨q, e, -, ⟨k, hk⟩, -⟩ | ⟨n, f, -, ⟨k, hk⟩, -⟩, u, hu, huw⟩
    · rw [hreads w hw u hu] at huw
      cases huw
    · cases hk
    · cases hk
  have hclosed : Closed i features d {t | ∃ k, t = .other k} := by
    refine ⟨fun q e he hq hdirty => ?_, fun k _ _ _ => ⟨k, rfl⟩, fun n f hf hdirty => ?_⟩
    · obtain ⟨hmentions, hranges⟩ := h.cell q e he hq
      rcases hdirty with hdirty | ⟨w, hw, hover⟩ | hdirty
      · exact absurd hdirty hmentions
      · rw [(hranges w hw).1] at hover
        cases hover
      · exact absurd hdirty (hread _ fun w hw => (hranges w hw).2)
    · obtain ⟨hkey, hranges⟩ := h.feature f (List.mem_of_getElem? hf)
      rcases hdirty with hdirty | hdirty
      · exact absurd hdirty hkey
      · exact absurd hdirty (hread _ hranges)
  intro hp
  obtain ⟨k, hk⟩ := dirty_subset hclosed hp
  cases hk

end Dependency

namespace Engine

variable {e e' : Engine} {a p x : Place} {waits : Bool} {r : Report}

/-- A calculation goes through the cell, or finds it on a cycle. -/
def Reaches (e : Engine) (waits : Bool) (p : Place) : Prop := p ∈ (e.calculationWith waits).plan.cycles ∨
  p ∈ (e.calculationWith waits).plan.cells ∨ p ∈ e.repeated waits

lemma kept_of_not_reached (hrun : e.calculate waits = (.completed r, e')) (hp : ¬ e.Reaches waits p) :
    e'.config.books.value? p = e.config.books.value? p ∧ e'.config.arrayRanges[p]? = e.config.arrayRanges[p]? := by
  have hnone : r.values[p]? = none := by
    rw [← Option.not_isSome_iff_eq_none, isSome_values hrun]
    exact hp
  constructor
  · obtain ⟨host, -, rfl⟩ := run_of_calculate hrun
    rw [config_commit, Config.books_commit, Report.value?_applyTo, hnone]
    exact Option.map_id'
  · by_contra hmoved
    exact hp (Or.inr (calculated_of_moved hrun hmoved))

lemma not_reached_of_unheard (h : Unheard e.index e.config.features e.pending) : ¬ e.Reaches waits p := by
  have hcells : ∀ q, q ∉ (e.calculationWith waits).plan.cells := fun q hq => h.not_dirty (Plan.mem_cells.1 hq).1
  rintro (hp | hp | hp)
  · exact h.not_dirty (Plan.mem_cycles.1 hp).1
  · exact hcells p hp
  · obtain ⟨q, hq⟩ := Calculation.exists_moved_of_mem_spillReaders hp
    exact Calculation.not_moved_firstRound (d := e.pending) rfl (hcells q) hq

/-- What may happen to an engine while its calculations pass a cell by and edits leave it alone. -/
def Passes (a : Place) (e e' : Engine) : Prop :=
  Next (Elsewhere a) e e' ∧ ∀ waits, e' = (e.calculate waits).2 → ¬ e.Reaches waits a

lemma Passes.kept (h : Passes a e e') :
    e'.config.books.value? a = e.config.books.value? a ∧ e'.config.arrayRanges[a]? = e.config.arrayRanges[a]? := by
  obtain ⟨hn, hnot⟩ := h
  cases hn with
  | setCell hp hset =>
    obtain ⟨-, hbooks, hranges, -⟩ := setCell_ok hset
    rw [hbooks, hranges, Books.value?_setCell, if_neg (Ne.symm hp)]
    exact ⟨rfl, rfl⟩
  | markDirty => exact ⟨rfl, rfl⟩
  | register => exact ⟨rfl, rfl⟩
  | invalidate => exact ⟨rfl, rfl⟩
  | evaluate => exact ⟨rfl, rfl⟩
  | calculate waits =>
    rcases e.calculate_cases waits with ⟨r, host, -, heq⟩ | ⟨n, host, -, heq⟩
    · rw [heq]
      exact kept_of_not_reached heq (hnot waits rfl)
    · rw [heq]
      exact ⟨rfl, rfl⟩

/-- A cell that no calculation reaches keeps its value and its array; so a blocked array stays blocked. -/
theorem kept_of_passes (h : ReflTransGen (Passes a) e e') :
    e'.config.books.value? a = e.config.books.value? a ∧ e'.config.arrayRanges[a]? = e.config.arrayRanges[a]? := by
  induction h with
  | refl => exact ⟨rfl, rfl⟩
  | tail _ hn ih => exact ⟨hn.kept.1.trans ih.1, hn.kept.2.trans ih.2⟩

/-- Nothing is calculated because of an edited cell that no formula mentions and no array covers, not even what the
cell was in the way of. -/
theorem values_of_unmentioned {cell : Cell} {e₁ e₂ : Engine}
    (hclean : e.config.changes = { excluded := e.config.changes.excluded }) (hset : e.setCell x cell = .ok e₁)
    (hentry : ∀ p f, e₁.index.cell? p = some f → f.output.contains x = false ∧
      (∀ u ∈ f.references, u.contains x = false) ∧ (e.options.volatile = true → f.volatile = false))
    (hfeature : ∀ f ∈ e.config.features, ∀ u ∈ f.dependencies, u.contains x = false)
    (hrun : e₁.calculate waits = (.completed r, e₂)) :
    r.values = ∅ ∧ ∀ p, e₂.config.books.value? p = e₁.config.books.value? p ∧
      e₂.config.arrayRanges[p]? = e.config.arrayRanges[p]? := by
  obtain ⟨-, -, hranges, -, hchanges, -⟩ := setCell_ok hset
  obtain ⟨-, hsame⟩ := setCell_keeps hset
  have hpending : e₁.pending = { ranges := [x.region], excluded := e.config.changes.excluded, volatile := e.options.volatile } := by
    rw [pending, hchanges, hclean, hsame.2]
    rfl
  -- the edited cell is all that has changed, and nothing listens to it
  have hunheard : Unheard e₁.index e₁.config.features e₁.pending := by
    rw [hpending, hsame.1]
    refine ⟨fun p f hf _ => ?_, fun f hf => ?_⟩
    · obtain ⟨houtput, hreferences, hvolatile⟩ := hentry p f hf
      refine ⟨?_, ?_⟩
      · rintro (hforce | ⟨hv, hfv⟩ | ⟨n, hn, -⟩ | ⟨n, hn, -⟩)
        · cases hforce
        · rw [hvolatile hv] at hfv
          cases hfv
        · cases hn
        · cases hn
      · simpa [Region.overlaps_region] using ⟨houtput, hreferences⟩
    · refine ⟨by simp, ?_⟩
      simpa [Region.overlaps_region] using hfeature f hf
  have hnot : ∀ p, ¬ e₁.Reaches waits p := fun p => not_reached_of_unheard hunheard
  refine ⟨?_, fun p => ?_⟩
  · refine ExtTreeMap.ext_getElem? fun p => ?_
    rw [ExtTreeMap.getElem?_empty, ← Option.not_isSome_iff_eq_none, isSome_values hrun]
    exact hnot p
  · rw [← hranges]
    exact kept_of_not_reached hrun (hnot p)

end Engine

namespace Calculation

variable {c : Calculation} {d : Changes} {p : Place} {e : Entry} {g : Grid Value} {t : Range}

/-- Nothing in the cell is in the way of the array of another cell, and no third array has been there in the course of
the calculation. -/
structure Vacant (c : Calculation) (first last : Pass) (p x : Place) : Prop where
  unoccupied : ¬ c.config.books.Occupied x
  formula : c.index.cell? x = none
  uncovered : ∀ b, b ≠ p → ¬ c.config.Over b x ∧ ¬ first.Over b x ∧ ¬ last.Over b x

lemma free_of_vacant {s : Pass} (hvacant : ∀ x, (p.area t).contains x = true → x ≠ p → c.Vacant c.firstPass c.lastPass p x)
    (hover : ∀ b x, s.Over b x → c.config.Over b x ∨ c.firstPass.Over b x ∨ c.lastPass.Over b x) :
    s.Free c.config.books c.index p t where
  cell x hx hne cell hcell := by
    have hunoccupied := (hvacant x hx hne).unoccupied
    simp only [Books.Occupied, not_exists, not_and, Bool.not_eq_false] at hunoccupied
    exact hunoccupied cell hcell
  formula x hx hne := by
    have hnone : c.index.cells[x]? = none := (hvacant x hx hne).formula
    rw [ExtTreeMap.contains_eq_isSome_getElem?, hnone, Option.isSome_none]
  array x hx hne b q hb hq := by
    obtain ⟨hbefore, hfirst, hlast⟩ := (hvacant x hx hne).uncovered b hb
    refine Bool.eq_false_iff.2 fun hin => ?_
    rcases hover b x ⟨q, hq, hin⟩ with h | h | h
    · exact hbefore h
    · exact hfirst h
    · exact hlast h

lemma anchors_of_vacant (hc : c.Plain d) (hs : c.options.spillArrays = true) (hp : p ∈ c.calculated c.again)
    (he : c.index.cell? p = some e) (hu : c.Undisturbed c.firstPass c.lastPass p e)
    (hvalue : (c.lastPass.reading c.config.books).value c.registry p e.node = .array g) (hg : 1 < g.size)
    (ht : Pass.target? p g.rows g.cols = some t)
    (hvacant : ∀ x, (p.area t).contains x = true → x ≠ p → c.Vacant c.firstPass c.lastPass p x) :
    c.lastPass.results[p]? = some (.array g) ∧ c.lastPass.anchors[p]? = some t := by
  obtain ⟨s, hspill, hover, ⟨hresult, hanchor⟩, hturn⟩ := exists_turn hc hp he
  have hstore := Pass.store_of_free (hspill.trans hs) hg ht (free_of_vacant hvacant hover)
  rw [settle_eq he, hturn hu, hvalue, hstore] at hresult hanchor
  refine ⟨hresult.trans ?_, hanchor.trans ?_⟩
  · rw [Pass.results_record, if_pos rfl]
  · exact (s.withdraw p).anchors_place_self p g t

end Calculation

namespace Engine

variable {e : Engine}

/-- An array recovers when its cell is calculated and nothing stands in its way any more: it is recorded with its
values, over the whole range that it asks for. -/
theorem spills_of_vacant (h : e.Reached) (hs : e.options.spillArrays = true) :
    let c := e.calculation
    let first := (c.firstRound e.host.issueGeneration e.cursor).session.pass
    let last := (c.secondRound e.host.issueGeneration e.cursor).session.pass
    let after := (e.calculate false).2
    ∃ r, (e.calculate false).1 = .completed r ∧ ∀ p ∈ c.calculated (c.spillReaders first), ∀ x,
      e.index.cell? p = some x → c.Undisturbed first last p x →
      ∀ g t, (after.evaluate x.text p false).1 = .array g → 1 < g.size → Pass.target? p g.rows g.cols = some t →
        (∀ y, (p.area t).contains y = true → y ≠ p → c.Vacant first last p y) →
        r.values[p]? = some (Value.array g).toScalar ∧ r.arrayRanges[p]? = some t ∧
          after.config.arrayRanges[p]? = some t ∧
          (Pass.covered p t).map (r.arrayValues[·]?) = g.items.map fun u => some u.toScalar := by
  intro c first last after
  have hplain := h.plain.2
  have hc : c.Plain e.pending := plain_calculation hplain
  have hfirst : first = c.firstPass := (Calculation.firstRound_spec hc rfl).1
  have hlast : last = c.lastPass := (Calculation.secondRound_spec hc rfl).1
  rw [hfirst, hlast]
  obtain ⟨host, hcalculate, hafter⟩ := calculate_plain hplain
  refine ⟨e.report, by rw [hcalculate], fun p hp x hx hu g t hvalue hg ht hvacant => ?_⟩
  have hcommit : after = { e with host }.commit e.report := by
    simp only [after, hcalculate]
  rw [hcommit, evaluate_commit hplain hafter hx hu] at hvalue
  obtain ⟨hresult, hanchor⟩ := Calculation.anchors_of_vacant hc hs hp hx hu hvalue hg ht hvacant
  obtain ⟨range, hrange, hvalues⟩ := Calculation.report_array (m := ∅) hc hs
    (fun hover => (hu.alone p (Or.inr hp) (Or.inl rfl) p hover).2.2) hresult hg
  obtain rfl : t = range := by
    rw [Calculation.report_arrayRanges, hanchor, Option.ite_none_right_eq_some] at hrange
    exact Option.some.inj hrange.2
  refine ⟨Calculation.report_values.2 ⟨Or.inr hp, _, hresult, rfl⟩, hrange, ?_, hvalues⟩
  have hranges : (c.config.commit (c.report c.lastPass c.again ∅)).arrayRanges = c.lastPass.anchors :=
    Calculation.arrayRanges_commit Calculation.untouched_lastPass
  rw [hcommit, config_commit, ← hanchor, ← hranges]
  rfl

end Engine

end Spreadsheet
