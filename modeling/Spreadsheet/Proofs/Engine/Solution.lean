import Spreadsheet.Proofs.Engine.Still

/-! Stored values that fit together: every formula cell holds what its formula means over all others. Such
values are determined by the cells without formulas. -/

namespace Spreadsheet

open Std Dependency Formula

/-- What the cells of workbooks hold. -/
def Books.reading (b : Books) : Reading where
  cell p := (b.value? p).getD .empty
  hasSheet book sheet := (b.sheet? book sheet).isSome

namespace Dependency.Index

variable {r : Registry} {i : Index} {ρ ρ' : Reading} {p q : Place} {e : Entry}

/-- A formula cell on a cycle holds `#CYCLE!`, and every other one what its formula means. -/
structure Holds (r : Registry) (i : Index) (ρ : Reading) (p : Place) (e : Entry) : Prop where
  cyclic : i.OnCycle ∅ p → ρ.cell p = .error .cycle
  acyclic : ¬ i.OnCycle ∅ p → ρ.cell p = (ρ.value r p e.node).toScalar

/-- Formula cells hold what they should, but for those in a set. -/
def HoldsBut (r : Registry) (i : Index) (ρ : Reading) (stale : Set Place) : Prop :=
  ∀ p e, i.cell? p = some e → p ∉ stale → i.Holds r ρ p e

lemma Holds.congr (h : i.Holds r ρ p e) (hplain : e.node.Plain r)
    (hcell : ∀ s ∈ referencesOf p.book p.sheet e.node, ∀ q, s.contains q = true → ρ.cell q = ρ'.cell q)
    (hsheet : ρ.hasSheet = ρ'.hasSheet) (hp : ρ.cell p = ρ'.cell p) : i.Holds r ρ' p e where
  cyclic hc := hp ▸ h.cyclic hc
  acyclic hc := by
    rw [← hp, h.acyclic hc, Reading.value_congr hplain ⟨hcell, hsheet⟩]

lemma HoldsBut.congr {i' : Index} {stale : Set Place} (h : i'.HoldsBut r ρ stale)
    (hcell : ∀ p, i.cell? p = i'.cell? p) : i.HoldsBut r ρ stale := by
  have hreads : i.ReadsAmong ∅ = i'.ReadsAmong ∅ := by
    funext p q
    simp only [ReadsAmong, Reads, hcell]
  have hcycle : i.OnCycle ∅ = i'.OnCycle ∅ := by
    funext p
    rw [OnCycle, OnCycle, hreads]
  intro p e he hp
  have hp := h p e ((hcell p).symm.trans he) hp
  exact ⟨fun hc => hp.cyclic (hcycle ▸ hc), fun hc => hp.acyclic (hcycle ▸ hc)⟩

end Dependency.Index

namespace Calculation

open Dependency

variable {c : Calculation} {d : Changes} {s : Pass} {p : Place} {broken : List Place}

lemma reading_applyTo (h : Halfway c broken [] s) (hc : c.Plain d)
    (hsheet : ∀ p e, c.index.cell? p = some e → (c.config.books.sheet? p.book p.sheet).isSome) :
    ((c.report s [] ∅).applyTo c.config.books).reading = s.reading c.config.books := by
  have hcalculated : ∀ p, p ∈ c.calculated [] ↔ p ∈ c.plan.cells := fun p => by simp [mem_calculated]
  have hplanned : ∀ p, p ∈ c.plan.cycles ∨ p ∈ c.calculated [] → ∃ e, c.index.cell? p = some e := by
    intro p hp
    rw [hcalculated, hc.plan, Plan.mem_cycles, Plan.mem_cells, ← and_or_left] at hp
    exact (dirty_cell hp.1).2
  have hcell : ∀ p, ((c.report s [] ∅).applyTo c.config.books).reading.cell p =
      (s.reading c.config.books).cell p := by
    intro p
    simp only [Books.reading, h.still.cell_reading, Report.value?_applyTo, ExtTreeSet.contains_iff_mem, h.cycles]
    cases hv : (c.report s [] ∅).values[p]? with
    | some v =>
      obtain ⟨hp, w, hw, rfl⟩ := report_values.1 hv
      obtain ⟨e, he⟩ := hplanned p hp
      obtain ⟨u, hu⟩ := Option.isSome_iff_exists.1 (Books.isSome_value?.trans (hsheet p e he))
      simp only [hu, hw, Option.map_some, Option.getD_some]
      split
      · rename_i hcycle
        obtain rfl := Option.some.inj ((h.cyclic p hcycle).symm.trans hw)
        rfl
      · rfl
    | none =>
      have hnone : ∀ w, s.results[p]? = some w → ¬ (p ∈ c.plan.cycles ∨ p ∈ c.calculated []) := by
        intro w hw hp
        rw [report_values.2 ⟨hp, w, hw, rfl⟩] at hv
        cases hv
      have hcycle : p ∉ c.plan.cycles := fun hp => hnone _ (h.cyclic p hp) (Or.inl hp)
      have hcells : p ∉ c.plan.cells := by
        intro hp
        obtain ⟨e, _, hw⟩ := h.done p hp (by simp)
        exact hnone _ hw (Or.inr ((hcalculated p).2 hp))
      simp [hcycle, h.waiting p hcycle (Or.inl hcells)]
  exact congr_arg₂ Reading.mk (funext hcell) (funext₂ (Books.isSome_sheet?_congr Report.outline_applyTo))

/-- A calculation makes every formula cell hold what it should, if only dirty ones did not before. -/
lemma holds_reading (h : Halfway c [] [] s) (hc : c.Plain d) (hd : d.excluded = ∅)
    (hbefore : c.index.HoldsBut c.registry c.config.books.reading {p | .cell p ∈ dirty c.index c.config.features d}) :
    c.index.HoldsBut c.registry (s.reading c.config.books) ∅ := by
  have hclean : ∀ p, .cell p ∉ dirty c.index c.config.features d →
      (s.reading c.config.books).cell p = c.config.books.reading.cell p := by
    intro p hp
    have hcycle : p ∉ c.plan.cycles := fun h => hp (Plan.mem_cycles.1 (hc.plan ▸ h)).1
    have hcells : p ∉ c.plan.cells := fun h => hp (Plan.mem_cells.1 (hc.plan ▸ h)).1
    simp [h.still.cell_reading, Books.reading, h.cycles, hcycle, h.waiting p hcycle (Or.inl hcells)]
  intro p e he _
  -- a dirty cell has just been calculated; any other held before, and has read nothing that is dirty
  by_cases hp : .cell p ∈ dirty c.index c.config.features d
  · have hcycles : p ∈ c.plan.cycles ↔ .cell p ∈ dirty c.index c.config.features d ∧ c.index.OnCycle ∅ p := by
      rw [hc.plan, Plan.mem_cycles, hd]
    have hcells : p ∈ c.plan.cells ↔ .cell p ∈ dirty c.index c.config.features d ∧ ¬ c.index.OnCycle ∅ p := by
      rw [hc.plan, Plan.mem_cells, hd]
    constructor
    · intro hcycle
      have hmem := hcycles.2 ⟨hp, hcycle⟩
      simp [h.still.cell_reading, h.cycles, hmem]
    · intro hcycle
      have hmem := hcells.2 ⟨hp, hcycle⟩
      obtain ⟨f, hf, hr⟩ := h.done p hmem (by simp)
      obtain rfl := Option.some.inj (he.symm.trans hf)
      have hnot := hc.not_mem_cycles hmem
      have hread : (s.reading c.config.books).cell p =
          (s.results[p]?.map Value.toScalar).getD ((c.config.books.value? p).getD .empty) := by
        simp [h.still.cell_reading, h.cycles, hnot]
      rw [hread, hr, if_neg List.not_mem_nil]
      rfl
  · refine (hbefore p e he hp).congr (hc.index p e he).node ?_ rfl (hclean p hp).symm
    intro t ht q hq
    refine (hclean q ?_).symm
    intro hdirty
    obtain ⟨f, hf⟩ := (dirty_cell hdirty).2
    exact hp (dirty_of_reads (hc.index.reads he hf ht hq) (by simp [hd]) hdirty)

end Calculation

end Spreadsheet
