import Spreadsheet.Proofs.Engine.Arrays

/-! Readers of arrays that moved are calculated once more. What that leaves out, and when nothing is left out. -/

namespace Spreadsheet

open Std Dependency Formula

/-- The formula of the entry reads a place. -/
def Dependency.Entry.Refers (e : Entry) (x : Place) : Prop := ∃ t ∈ e.references, t.contains x = true

namespace Pass

variable {s : Pass} {books : Books} {index : Index} {a x : Place} {v : Value}

lemma cell_reading_store (hxa : x ≠ a) (hold : ¬ s.Over a x) (hnew : ¬ (s.store books index a v).Over a x) :
    ((s.store books index a v).reading books).cell x = (s.reading books).cell x := by
  simp only [reading, cycles_store, results_store_of_ne hxa, spilled_store_of_not_over hold hnew]

end Pass

namespace Calculation

variable {c : Calculation} {s : Pass} {p q x : Place} {e : Entry} {l done rest : List Place} {d : Changes}

/-- The formula of a cell reads nothing that changes after the cell was calculated for the last time. In the first
round, an array that moves makes its readers to be calculated again, unless their own arrays have moved too; in the
second round nothing more is done about it. -/
structure Undisturbed (c : Calculation) (first last : Pass) (p : Place) (e : Entry) : Prop where
  order : c.Moved first p → ∀ q x, c.Moved first q → e.Refers x → first.Over q x → Before c.plan.cells q p
  again : c.Moved first p → ∀ q ∈ c.spillReaders first, ¬ c.index.Reads p q
  late : ∀ q x, c.Moved last q → ¬ c.Moved first q → e.Refers x → last.Over q x →
    Before (c.spillReaders first) q p
  alone : ∀ x, x ∈ c.plan.cycles ∨ x ∈ c.calculated (c.spillReaders first) → x = p ∨ e.Refers x →
    ∀ a, last.Over a x → a = x ∧ x ∉ c.plan.cycles ∧ c.Lone x

lemma over_of_not_moved (h : ¬ c.Moved s q) : s.Over q x ↔ c.config.Over q x := by
  rw [Pass.Over, Config.Over, not_not.1 h]

lemma cell_reading_sweep (hc : c.Plain d) (hl : c.index.Ordered l) (h : Awaits c l s) (hx : x ∉ l)
    (hover : ∀ q ∈ l, ¬ c.config.Over q x ∧ ¬ (c.sweep s l).Over q x) :
    ((c.sweep s l).reading c.config.books).cell x = (s.reading c.config.books).cell x := by
  induction l generalizing s with
  | nil => rfl
  | cons p l ih =>
    obtain ⟨e, he⟩ := hl.entry p List.mem_cons_self
    obtain ⟨hxp, hx⟩ := not_or.1 (mt List.mem_cons.2 hx)
    obtain ⟨hp, hover⟩ := List.forall_mem_cons.1 hover
    have hsweep : c.sweep s (p :: l) = c.sweep (c.settle s p) l := rfl
    have hanchor : (c.sweep (c.settle s p) l).anchors[p]? = (c.settle s p).anchors[p]? := anchors_sweep hl.not_mem
    rw [hsweep] at hp hover ⊢
    rw [ih hl.tail (h.settle hc hl) hx hover]
    have hnew : ¬ (c.settle s p).Over p x := fun ⟨r, hr, hrx⟩ => hp.2 ⟨r, hanchor.trans hr, hrx⟩
    have hold : ¬ s.Over p x := fun ⟨r, hr, hrx⟩ => hp.1 ⟨r, (h.anchors p List.mem_cons_self).symm.trans hr, hrx⟩
    rw [settle_eq he] at hnew ⊢
    exact Pass.cell_reading_store hxp hold hnew

lemma sweep_of_mem (hl : c.index.Ordered (done ++ p :: rest)) (s : Pass) :
    (c.sweep s (done ++ p :: rest)).results[p]? = (c.settle (c.sweep s done) p).results[p]? ∧
      (c.sweep s (done ++ p :: rest)).anchors[p]? = (c.settle (c.sweep s done) p).anchors[p]? := by
  have hsweep : c.sweep s (done ++ p :: rest) = c.sweep (c.settle (c.sweep s done) p) rest := sweep_append
  rw [hsweep]
  exact ⟨results_sweep hl.behind.not_mem, anchors_sweep hl.behind.not_mem⟩

lemma over_sweep {b : Place} (hl : (done ++ rest).Nodup) (h : (c.sweep s done).Over b x) :
    s.Over b x ∨ (c.sweep s (done ++ rest)).Over b x := by
  obtain ⟨r, hr, hx⟩ := h
  by_cases hb : b ∈ done
  · have hrest : b ∉ rest := fun hrest => List.disjoint_of_nodup_append hl hb hrest
    exact Or.inr ⟨r, by rw [sweep_append, anchors_sweep hrest, hr], hx⟩
  · exact Or.inl ⟨r, (anchors_sweep hb).symm.trans hr, hx⟩

lemma not_before_of_mem (hl : c.index.Ordered (done ++ p :: rest)) (hq : q ∈ p :: rest) :
    ¬ Before (done ++ p :: rest) q p := by
  have hnodup : (done ++ p :: rest).Nodup := hl.later.imp And.left
  have hbefore : q ≠ p → Before (done ++ p :: rest) p q := fun hqp =>
    (List.cons_sublist_cons.2 (List.singleton_sublist.2 ((List.mem_cons.1 hq).resolve_left hqp))).trans
      (List.sublist_append_right done _)
  intro h
  by_cases hqp : q = p
  · subst hqp
    exact h.asymm hnodup h
  · exact h.asymm hnodup (hbefore hqp)

/-- A round that has come to a cell leaves what the cell reads as it is, where no array moves over it from a turn that is
still to come. -/
lemma cell_reading_rest (hc : c.Plain d) (hl : c.index.Ordered (done ++ p :: rest)) (h : Awaits c (done ++ p :: rest) s)
    (he : c.index.cell? p = some e) (hx : e.Refers x)
    (hlate : ∀ q, c.Moved (c.sweep s (done ++ p :: rest)) q → (c.sweep s (done ++ p :: rest)).Over q x →
      q ∈ p :: rest → Before (done ++ p :: rest) q p) :
    ((c.sweep s (done ++ p :: rest)).reading c.config.books).cell x =
      ((c.sweep s done).reading c.config.books).cell x := by
  obtain ⟨t, ht, hx⟩ := hx
  rw [(hc.index p e he).references] at ht
  rw [sweep_append] at hlate ⊢
  refine cell_reading_sweep hc hl.behind (h.sweep hc hl) (hc.index.not_mem hl.behind he ht hx) fun q hq => ?_
  have hold : ¬ c.config.Over q x := by
    rintro ⟨r, hr, hrx⟩
    rw [hc.not_covered hl.behind he ht hx hq r hr] at hrx
    cases hrx
  refine ⟨hold, fun hover => ?_⟩
  -- the array of a turn to come did not lie over `x` before, so it has moved there
  by_cases hmoved : c.Moved (c.sweep (c.sweep s done) (p :: rest)) q
  · exact not_before_of_mem hl hq (hlate q hmoved hover hq)
  · exact hold ((over_of_not_moved hmoved).1 hover)

lemma cell_reading_again (hc : c.Plain d) (hu : c.Undisturbed c.firstPass c.lastPass p e)
    (hagain : c.again = done ++ p :: rest) (he : c.index.cell? p = some e) (hx : e.Refers x) :
    (c.lastPass.reading c.config.books).cell x = ((c.sweep c.reopened done).reading c.config.books).cell x := by
  have hlast : c.lastPass = c.sweep c.reopened (done ++ p :: rest) := by rw [lastPass, hagain]
  rw [hlast]
  refine cell_reading_rest hc (hagain ▸ ordered_again) (hagain ▸ awaits_reopened hc) he hx fun q hmoved hover hq => ?_
  rw [← hlast] at hmoved hover
  have hmem : q ∈ c.again := hagain ▸ List.mem_append_right done hq
  exact hagain ▸ hu.late q x hmoved (untouched_firstPass.not_moved hmem) hx hover

lemma mem_again_of_dirty (hc : c.Plain d) (hp : p ∈ c.plan.cells) (hn : ¬ c.Moved c.firstPass p)
    (hq : c.Moved c.firstPass q) (hdirty : .cell p ∈ dirty c.index [] (c.moves c.firstPass)) : p ∈ c.again := by
  rw [hc.plan] at hp
  refine untouched_firstPass.mem_spillReaders (Plan.mem_cells.2 ⟨hdirty, ?_⟩) hn hq
  rw [show (c.moves c.firstPass).excluded = d.excluded from hc.excluded]
  exact (Plan.mem_cells.1 hp).2

lemma Plain.not_mem_excluded (hc : c.Plain d) (hp : p ∈ c.plan.cells) : p ∉ (c.moves s).excluded := by
  rw [hc.plan] at hp
  rw [show (c.moves s).excluded = d.excluded from hc.excluded]
  exact (dirty_cell (Plan.mem_cells.1 hp).1).1

lemma not_reads_again (hc : c.Plain d) (hu : c.Undisturbed c.firstPass c.lastPass p e) (hp : p ∈ c.plan.cells)
    (hn : p ∉ c.again) (hq : q ∈ c.again) : ¬ c.index.Reads p q := by
  intro hr
  by_cases hmoved : c.Moved c.firstPass p
  · exact hu.again hmoved q hq hr
  · have hdirty := (Plan.mem_cells.1 ((sublist_spillReaders c c.firstPass).subset hq)).1
    obtain ⟨a, ha⟩ := exists_moved_of_mem_spillReaders hq
    exact hn (mem_again_of_dirty hc hp hmoved ha (dirty_of_reads hr (hc.not_mem_excluded hp) hdirty))

/-- In the first round nothing that the cell reads moves after its turn, or else the cell is calculated again. -/
lemma cell_reading_firstPass (hc : c.Plain d) (hu : c.Undisturbed c.firstPass c.lastPass p e)
    (hcells : c.plan.cells = done ++ p :: rest) (hn : p ∉ c.again) (he : c.index.cell? p = some e)
    (hx : e.Refers x) :
    (c.firstPass.reading c.config.books).cell x = ((c.sweep c.start done).reading c.config.books).cell x := by
  have hp : p ∈ c.plan.cells := by simp [hcells]
  have hfirst : c.firstPass = c.sweep c.start (done ++ p :: rest) := by rw [firstPass, hcells]
  rw [hfirst]
  refine cell_reading_rest hc (hcells ▸ hc.ordered_cells) (hcells ▸ awaits_start hc) he hx fun q hmoved hover _ => ?_
  rw [← hfirst] at hmoved hover
  rw [← hcells]
  by_cases hp' : c.Moved c.firstPass p
  · exact hu.order hp' q x hmoved hx hover
  · obtain ⟨t, ht, hx⟩ := hx
    obtain ⟨r, hr, hrx⟩ := hover
    refine absurd (mem_again_of_dirty hc hp hp' hmoved ?_) hn
    refine closed_dirty.cell p e he (hc.not_mem_excluded hp) (Or.inr (Or.inr ⟨q.area r, ?_, t, ht, ?_⟩))
    · exact Or.inl (untouched_firstPass.mem_moves hmoved (Or.inl hr))
    · exact Region.overlaps_of_contains hx hrx

/-- The second round changes nothing that a cell reads which it leaves out. -/
lemma cell_reading_lastPass (hc : c.Plain d) (hu : c.Undisturbed c.firstPass c.lastPass p e) (hp : p ∈ c.plan.cells)
    (hn : p ∉ c.again) (he : c.index.cell? p = some e) (hx : e.Refers x) :
    (c.lastPass.reading c.config.books).cell x = (c.firstPass.reading c.config.books).cell x := by
  have hnot := fun q hq => not_reads_again (q := q) hc hu hp hn hq
  obtain ⟨t, ht, hx⟩ := hx
  have hrefs := ht
  rw [(hc.index p e he).references] at hrefs
  have hxagain : x ∉ c.again := by
    intro hmem
    obtain ⟨f, hf⟩ := ordered_again.entry x hmem
    exact hnot x hmem (hc.index.reads he hf hrefs hx)
  have hreopened : (c.reopened.reading c.config.books).cell x = (c.firstPass.reading c.config.books).cell x := by
    have hcycles : c.reopened.cycles = c.firstPass.cycles := Pass.cycles_foldl_invalidate c.again c.firstPass
    simp only [Pass.reading, hcycles, results_reopened hc, if_neg hxagain, (sameArrays_reopened c).spilled]
  rw [← hreopened]
  refine cell_reading_sweep hc ordered_again (awaits_reopened hc) hxagain fun q hq => ?_
  have hold : ¬ c.config.Over q x := by
    rintro ⟨r, hr, hrx⟩
    obtain ⟨f, hf⟩ := ordered_again.entry q hq
    exact hnot q hq (hc.index.reads_output he hf hrefs hx (hc.contains_output hf hr hrx))
  refine ⟨hold, fun hover => ?_⟩
  by_cases hmoved : c.Moved c.lastPass q
  · have hbefore : Before c.again q p := hu.late q x hmoved (untouched_firstPass.not_moved hq) ⟨t, ht, hx⟩ hover
    exact hn (hbefore.subset (by simp))
  · exact hold ((over_of_not_moved hmoved).1 hover)

lemma Plain.value_congr (hc : c.Plain d) (he : c.index.cell? p = some e) {ρ ρ' : Reading}
    (hcell : ∀ x, e.Refers x → ρ.cell x = ρ'.cell x) (hsheet : ρ.hasSheet = ρ'.hasSheet) :
    ρ.value c.registry p e.node = ρ'.value c.registry p e.node := by
  refine Reading.value_congr (hc.index p e he).node ⟨fun t ht x hx => hcell x ⟨t, ?_, hx⟩, hsheet⟩
  rwa [(hc.index p e he).references]

/-- The last turn of a calculated cell. If nothing disturbs the cell, its formula means then what it means at the end. -/
lemma exists_turn (hc : c.Plain d) (hp : p ∈ c.calculated c.again) (he : c.index.cell? p = some e) :
    ∃ s : Pass, s.spillArrays = c.options.spillArrays ∧
      (∀ b x, s.Over b x → c.config.Over b x ∨ c.firstPass.Over b x ∨ c.lastPass.Over b x) ∧
      (c.lastPass.results[p]? = (c.settle s p).results[p]? ∧ c.lastPass.anchors[p]? = (c.settle s p).anchors[p]?) ∧
      (c.Undisturbed c.firstPass c.lastPass p e → (s.reading c.config.books).value c.registry p e.node =
        (c.lastPass.reading c.config.books).value c.registry p e.node) := by
  have hreopened : ∀ b x, c.reopened.Over b x ↔ c.firstPass.Over b x := fun b x => by
    rw [Pass.Over, (sameArrays_reopened c).anchors, Pass.Over]
  by_cases hagain : p ∈ c.again
  · obtain ⟨done, rest, hsplit⟩ := List.append_of_mem hagain
    have hordered : c.index.Ordered (done ++ p :: rest) := hsplit ▸ ordered_again
    refine ⟨c.sweep c.reopened done, ?_, fun b x hb => ?_, ?_, fun hu => ?_⟩
    · rw [spillArrays_sweep, (sameArrays_reopened c).spillArrays, firstPass, spillArrays_sweep, spillArrays_start]
    · rw [← hreopened, lastPass, hsplit]
      exact Or.inr (over_sweep (hordered.later.imp And.left) hb)
    · rw [lastPass, hsplit]
      exact sweep_of_mem hordered c.reopened
    · exact hc.value_congr he (fun x hx => (cell_reading_again hc hu hsplit he hx).symm) rfl
  · have hp := (mem_calculated.1 hp).resolve_right hagain
    obtain ⟨done, rest, hsplit⟩ := List.append_of_mem hp
    have hordered : c.index.Ordered (done ++ p :: rest) := hsplit ▸ hc.ordered_cells
    refine ⟨c.sweep c.start done, by rw [spillArrays_sweep, spillArrays_start], fun b x hb => ?_, ?_, fun hu => ?_⟩
    · rw [← over_start, firstPass, hsplit, ← or_assoc]
      exact Or.inl (over_sweep (hordered.later.imp And.left) hb)
    · rw [lastPass, results_sweep hagain, anchors_sweep hagain, results_reopened hc, if_neg hagain,
        (sameArrays_reopened c).anchors, firstPass, hsplit]
      exact sweep_of_mem hordered c.start
    · exact hc.value_congr he (fun x hx => ((cell_reading_lastPass hc hu hp hagain he hx).trans
        (cell_reading_firstPass hc hu hsplit hagain he hx)).symm) rfl

/-- A calculated cell that nothing disturbs ends with what its formula means at the end, or with `#SPILL!`. -/
theorem result_lastPass (hc : c.Plain d) (hp : p ∈ c.calculated c.again) (he : c.index.cell? p = some e) :
    ∃ w, c.lastPass.results[p]? = some w ∧ (c.Undisturbed c.firstPass c.lastPass p e →
      w = (c.lastPass.reading c.config.books).value c.registry p e.node ∨ w = .error .spill) := by
  obtain ⟨s, -, -, ⟨hresult, -⟩, hvalue⟩ := exists_turn hc hp he
  rw [settle_eq he] at hresult
  obtain ⟨w, hw, hresults⟩ := s.results_store c.config.books c.index p
    ((s.reading c.config.books).value c.registry p e.node)
  refine ⟨w, hresult.trans ((hresults p).trans (if_pos rfl)), fun hu => ?_⟩
  rwa [← hvalue hu]

/-- If the second round moves no other arrays than the first, all cells are undisturbed whose own arrays stay. -/
lemma Undisturbed.of_not_moved (hp : ¬ c.Moved c.firstPass p)
    (hlast : ∀ q, c.Moved c.lastPass q → c.Moved c.firstPass q)
    (halone : ∀ x, x ∈ c.plan.cycles ∨ x ∈ c.calculated c.again → x = p ∨ e.Refers x →
      ∀ a, c.lastPass.Over a x → a = x ∧ x ∉ c.plan.cycles ∧ c.Lone x) :
    c.Undisturbed c.firstPass c.lastPass p e :=
  ⟨fun h => absurd h hp, fun h => absurd h hp, fun q _ hq hn => absurd (hlast q hq) hn, halone⟩

lemma anchors_sweep_of_single (hvalue : ∀ e, c.index.cell? p = some e → ∀ (ρ : Reading) g,
    ρ.value c.registry p e.node ≠ .array g) (h : s.anchors[p]? = none) : (c.sweep s l).anchors[p]? = none := by
  refine sweep_induction (P := fun t => t.anchors[p]? = none) h fun t q e _ he ih => ?_
  by_cases hqp : p = q
  · subst hqp
    rw [Option.eq_none_iff_forall_ne_some]
    intro r hr
    obtain ⟨g, hg, -⟩ := Pass.store_of_some hr
    exact hvalue e he _ g hg
  · rwa [Pass.anchors_store hqp]

lemma not_moved_of_single (hvalue : ∀ e, c.index.cell? p = some e → ∀ (ρ : Reading) g,
    ρ.value c.registry p e.node ≠ .array g) (h : c.config.arrayRanges[p]? = none) :
    ¬ c.Moved c.firstPass p ∧ ¬ c.Moved c.lastPass p := by
  have hfirst : c.firstPass.anchors[p]? = none := by
    refine anchors_sweep_of_single hvalue ?_
    rw [anchors_start, h]
  have hlast : c.lastPass.anchors[p]? = none := by
    refine anchors_sweep_of_single hvalue ?_
    rw [(sameArrays_reopened c).anchors, hfirst]
  exact ⟨not_not.2 (hfirst.trans h.symm), not_not.2 (hlast.trans h.symm)⟩

lemma mem_cells_of_moved (h : c.Moved c.firstPass p) : p ∈ c.plan.cells := by
  by_contra hp
  refine h ?_
  rw [firstPass, anchors_sweep hp, anchors_start]

lemma mem_again_of_moved (h : c.Moved c.lastPass p) (hn : ¬ c.Moved c.firstPass p) : p ∈ c.again := by
  by_contra hp
  refine h ?_
  rw [lastPass, anchors_sweep hp, (sameArrays_reopened c).anchors]
  exact not_not.1 hn

lemma calculated_of_moved (h : c.Moved c.lastPass p) : p ∈ c.calculated c.again := by
  rw [mem_calculated]
  by_cases hfirst : c.Moved c.firstPass p
  · exact Or.inl (mem_cells_of_moved hfirst)
  · exact Or.inr (mem_again_of_moved h hfirst)

/-! What is found after the report is committed. -/

lemma exists_laid (hc : c.Plain d) (hp : p ∈ c.calculated c.again) {r : Range} (hr : c.lastPass.anchors[p]? = some r) :
    ∃ g, Laid c c.lastPass p r g ∧ c.lastPass.results[p]? = some (.array g) := by
  obtain ⟨g, hg⟩ := (laying_lastPass hc).laid p r (changed_of_calculated hc hp hr) hr
  obtain ⟨w, hw, -⟩ := result_lastPass hc hp hg.entry.choose_spec
  exact ⟨g, hg, by rw [hw, hg.result w hw]⟩

lemma spilled_self (hc : c.Plain d) (hp : p ∈ c.calculated c.again) (hlone : c.Lone p) (hover : c.lastPass.Over p p) :
    ∃ u w, c.lastPass.spilled[p]? = some u ∧ c.lastPass.results[p]? = some w ∧ u.toScalar = w.toScalar := by
  obtain ⟨r, hr, -⟩ := hover
  obtain ⟨g, hg, hw⟩ := exists_laid hc hp hr
  obtain ⟨u, hu, hfirst⟩ := Pass.first_item hg.target hg.regular (Nat.lt_of_succ_lt hg.size)
  exact ⟨u, _, hg.items p u hu (Or.inr hlone), hw, hfirst⟩

lemma flat_lastPass (hc : c.Plain d) : c.lastPass.Flat := by
  have h := awaits_reopened hc
  rw [← List.append_nil c.again] at h
  exact (h.sweep hc (by simpa using ordered_again)).flat

lemma Plain.acyclic (hc : c.Plain d) (hp : p ∈ c.calculated c.again) : p ∉ c.plan.cycles := by
  rcases mem_calculated.1 hp with hp | hp
  · rw [hc.plan] at hp ⊢
    exact Plan.not_mem_cycles hp
  · exact hc.acyclic_again hp

lemma cell_reading_of_result (hc : c.Plain d) (hx : x ∈ c.plan.cycles ∨ x ∈ c.calculated c.again) :
    ∃ w, c.lastPass.results[x]? = some w ∧ (c.lastPass.reading c.config.books).cell x = w.toScalar := by
  by_cases hcalculated : x ∈ c.calculated c.again
  · obtain ⟨e, he⟩ := exists_entry hc hx
    obtain ⟨w, hw, -⟩ := result_lastPass hc hcalculated he
    refine ⟨w, hw, ?_⟩
    have hcycles : c.lastPass.cycles.contains x = false := by
      rw [← Bool.not_eq_true, ExtTreeSet.contains_iff_mem, mem_cycles_lastPass]
      exact hc.acyclic hcalculated
    simp only [Pass.reading, hcycles, hw, Bool.false_eq_true, if_false, Option.some_or, Option.map_some,
      Option.getD_some]
  · have hcycle := hx.resolve_right hcalculated
    have hcycles : c.lastPass.cycles.contains x = true := ExtTreeSet.contains_iff_mem.2 (mem_cycles_lastPass.2 hcycle)
    refine ⟨.error .cycle, ?_, ?_⟩
    · rw [results_lastPass_of_not_mem hc hcalculated, if_pos hcycle]
    · simp only [Pass.reading, hcycles, if_true]
      rfl

lemma spilled_seededPass_of_result (hc : c.Plain d) {o : Options} {others : ItemMap Value}
    (hx : x ∈ c.plan.cycles ∨ x ∈ c.calculated c.again)
    (halone : ∀ a, c.lastPass.Over a x → a = x ∧ x ∉ c.plan.cycles ∧ c.Lone x) {w : Value}
    (hw : c.lastPass.results[x]? = some w) {u : Value}
    (hu : (seededPass (c.config.commit (c.report c.lastPass c.again others)) o).spilled[x]? = some u) :
    u.toScalar = w.toScalar := by
  have hlaying := laying_lastPass hc
  have hover := (spilled_seededPass.1 hu).1
  rw [arrayRanges_commit hlaying.untouched] at hover
  obtain ⟨a, hax⟩ := hover
  obtain ⟨rfl, hcycle, hlone⟩ := halone a hax
  obtain ⟨u', w', hu', hw', heq⟩ := spilled_self hc (hx.resolve_left hcycle) hlone hax
  rw [hlaying.spilled_seededPass (flat_lastPass hc) fun _ _ _ => ⟨u', hu'⟩, hu'] at hu
  rw [hw'] at hw
  rw [← Option.some.inj hu, heq, Option.some.inj hw]

lemma cell_reading_commit (hc : c.Plain d) {o : Options} {others : ItemMap Value}
    (hsheet : ∀ f, c.index.cell? x = some f → (c.config.books.sheet? x.book x.sheet).isSome)
    (halone : x ∈ c.plan.cycles ∨ x ∈ c.calculated c.again → ∀ a, c.lastPass.Over a x →
      a = x ∧ x ∉ c.plan.cycles ∧ c.Lone x) :
    ((seededPass (c.config.commit (c.report c.lastPass c.again others)) o).reading
        (c.config.commit (c.report c.lastPass c.again others)).books).cell x =
      (c.lastPass.reading c.config.books).cell x := by
  have hseeded : ((seededPass (c.config.commit (c.report c.lastPass c.again others)) o).reading
        (c.config.commit (c.report c.lastPass c.again others)).books).cell x =
      ((seededPass (c.config.commit (c.report c.lastPass c.again others)) o).spilled[x]?.map Value.toScalar).getD
        (((c.config.books.value? x).map
          ((c.report c.lastPass c.again others).values[x]?.getD ·)).getD .empty) := by
    simp [Pass.reading, seededPass_spare.1, seededPass_spare.2.2.2.1, Config.books_commit, Report.value?_applyTo]
  rw [hseeded]
  -- a cell with a result reads as what has been stored of it; any other as before, under the arrays that are left
  by_cases hx : x ∈ c.plan.cycles ∨ x ∈ c.calculated c.again
  · obtain ⟨w, hw, hread⟩ := cell_reading_of_result hc hx
    obtain ⟨f, hf⟩ := exists_entry hc hx
    obtain ⟨v, hv⟩ := Option.isSome_iff_exists.1 (Books.isSome_value?.trans (hsheet f hf))
    have hvalues : (c.report c.lastPass c.again others).values[x]? = some w.toScalar :=
      report_values.2 ⟨hx, w, hw, rfl⟩
    rw [hread, hv, hvalues]
    cases hu : (seededPass (c.config.commit (c.report c.lastPass c.again others)) o).spilled[x]? with
    | none => rfl
    | some u => exact spilled_seededPass_of_result hc hx (halone hx) hw hu
  · obtain ⟨hcycle, hcalculated⟩ := not_or.1 hx
    have hvalues : (c.report c.lastPass c.again others).values[x]? = none := by
      rw [Option.eq_none_iff_forall_ne_some]
      exact fun v hv => hx (report_values.1 hv).1
    have hspilled : (seededPass (c.config.commit (c.report c.lastPass c.again others)) o).spilled[x]? =
        c.lastPass.spilled[x]? :=
      (laying_lastPass hc).spilled_seededPass (flat_lastPass hc) fun a ha hax => by
        obtain ⟨r, hr, hrx⟩ := hax
        have hcalc := calculated_of_changed ha
        obtain ⟨g, hg, -⟩ := exists_laid hc hcalc hr
        obtain ⟨u, hu⟩ := Pass.exists_item hg.target hg.regular (Nat.lt_of_succ_lt hg.size) hrx
        refine ⟨u, hg.items x u hu (Or.inl ?_)⟩
        rintro rfl
        exact hcalculated hcalc
    have hcycles : c.lastPass.cycles.contains x = false := by
      rw [← Bool.not_eq_true, ExtTreeSet.contains_iff_mem, mem_cycles_lastPass]
      exact hcycle
    simp only [Pass.reading, hcycles, hspilled, hvalues, results_lastPass_of_not_mem hc hcalculated, if_neg hcycle,
      Bool.false_eq_true, if_false, Option.none_or, Option.getD_none, Option.map_id']

end Calculation

end Spreadsheet
