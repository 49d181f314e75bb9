import Spreadsheet.Proofs.Engine.Calculation
import Spreadsheet.Proofs.Engine.Report

/-! In a calculation in which no array spills every planned cell ends with what its formula means at the end, unless its
evaluation broke off. -/

namespace Spreadsheet

open Std Dependency Formula

namespace Pass

/-- No array has spilled, and none will. -/
structure Still (s : Pass) : Prop where
  anchors : s.anchors = ∅
  spilled : s.spilled = ∅
  changedAnchors : s.changedAnchors = ∅
  spillArrays : s.spillArrays = false

variable {s t : Pass} {books : Books} {index : Index} {p q : Place} {v : Value}

lemma SameArrays.still (h : s.SameArrays t) (ht : t.Still) : s.Still :=
  ⟨h.anchors.trans ht.anchors, h.spilled.trans ht.spilled, h.changedAnchors.trans ht.changedAnchors,
    h.spillArrays.trans ht.spillArrays⟩

lemma Still.store_eq (h : s.Still) (p : Place) (v : Value) : s.store books index p v = s.record p v := by
  have hw : s.withdraw p = s := by simp [withdraw, h.anchors]
  unfold store
  rw [hw]
  split
  · simp [h.spillArrays]
  · rfl

lemma Still.record (h : s.Still) (p : Place) (v : Value) : (s.record p v).Still :=
  ⟨h.anchors, h.spilled, h.changedAnchors, h.spillArrays⟩

lemma Still.cell_reading (h : s.Still) (books : Books) (p : Place) : (s.reading books).cell p =
    if s.cycles.contains p then .error .cycle
    else (s.results[p]?.map Value.toScalar).getD ((books.value? p).getD .empty) := by
  simp only [reading, h.spilled, ExtTreeMap.getElem?_empty, Option.or_none]

lemma cell_reading_record (hq : q ≠ p) : ((s.record p v).reading books).cell q = (s.reading books).cell q := by
  simp [reading, Pass.record, ExtTreeMap.getElem?_insert, hq.symm]

lemma value_reading_record {r : Registry} {n : Node} (hn : n.Plain r)
    (hp : ∀ t ∈ referencesOf q.book q.sheet n, ∀ x, t.contains x = true → x ≠ p) :
    ((s.record p v).reading books).value r q n = (s.reading books).value r q n :=
  Reading.value_congr hn ⟨fun t ht x hx => cell_reading_record (hp t ht x hx), rfl⟩

end Pass

namespace Calculation

variable {c : Calculation} {p q : Place} {e : Entry} {rest done : List Place} {s : Pass} {d : Changes}

/-- What makes a calculation one of plain formulas that do not spill. -/
structure Still (c : Calculation) (d : Changes) : Prop extends c.Plain d where
  spillArrays : c.options.spillArrays = false
  arrayRanges : c.config.arrayRanges = ∅

lemma still_start (hs : c.options.spillArrays = false) (ha : c.config.arrayRanges = ∅) : c.start.Still := by
  refine (sameArrays_start c).still ?_
  rw [seededPass, ha, hs, ExtTreeMap.foldl_eq_foldl_toList, ExtTreeMap.toList_eq_nil_iff.2 rfl,
    List.foldl_nil]
  exact ⟨rfl, rfl, rfl, rfl⟩

/-- A pass that has gone through all planned cells but the last ones, of which some broke off. -/
structure Halfway (c : Calculation) (broken rest : List Place) (s : Pass) : Prop where
  still : s.Still
  cycles : ∀ p, p ∈ s.cycles ↔ p ∈ c.plan.cycles
  cyclic : ∀ p ∈ c.plan.cycles, s.results[p]? = some (.error .cycle)
  waiting : ∀ p, p ∉ c.plan.cycles → p ∉ c.plan.cells ∨ p ∈ rest → s.results[p]? = none
  done : ∀ p ∈ c.plan.cells, p ∉ rest → ∃ e, c.index.cell? p = some e ∧ s.results[p]? =
    some (if p ∈ broken then .error .calculation else (s.reading c.config.books).value c.registry p e.node)

variable {broken : List Place}

lemma halfway_start (hc : c.Still d) (broken : List Place) : Halfway c broken c.plan.cells c.start where
  still := still_start hc.spillArrays hc.arrayRanges
  cycles _ := mem_cycles_start c
  cyclic p hp := by rw [results_start, if_pos hp]
  waiting p hp _ := by rw [results_start, if_neg hp]
  done p hp hn := absurd hp hn

lemma Plain.not_mem_cycles (hc : c.Plain d) (hp : p ∈ c.plan.cells) : p ∉ c.plan.cycles := by
  rw [hc.plan] at hp ⊢
  exact Plan.not_mem_cycles hp

lemma Plain.value_record (hc : c.Plain d) (hordered : c.index.Ordered (p :: rest)) (hq : q ∈ p :: rest)
    (he : c.index.cell? p = some e) (s : Pass) (v : Value) :
    ((s.record q v).reading c.config.books).value c.registry p e.node =
      (s.reading c.config.books).value c.registry p e.node :=
  Pass.value_reading_record (hc.index p e he).node fun _ ht _ hx hxq =>
    hc.index.not_mem hordered he ht hx (hxq ▸ hq)

lemma Halfway.record (h : Halfway c broken (p :: rest) s) (hc : c.Plain d) (hcells : c.plan.cells = done ++ p :: rest)
    (he : c.index.cell? p = some e) {v : Value}
    (hv : v = if p ∈ broken then .error .calculation else (s.reading c.config.books).value c.registry p e.node) :
    Halfway c broken rest (s.record p v) := by
  have hmem : p ∈ c.plan.cells := by simp [hcells]
  have hcycles := hc.not_mem_cycles hmem
  have hordered : c.index.Ordered (p :: rest) := (hcells ▸ hc.ordered_cells).behind
  constructor
  case still => exact h.still.record p _
  case cycles => exact h.cycles
  case cyclic =>
    intro q hq
    have hne : p ≠ q := fun heq => hcycles (heq ▸ hq)
    simpa [Pass.record, ExtTreeMap.getElem?_insert, hne] using h.cyclic q hq
  case waiting =>
    intro q hq hw
    have hne : p ≠ q := by
      rintro rfl
      exact hw.elim (· hmem) hordered.not_mem
    simpa [Pass.record, ExtTreeMap.getElem?_insert, hne] using h.waiting q hq (hw.imp_right (List.mem_cons_of_mem _))
  case done =>
    intro q hq hw
    by_cases heq : q = p
    · subst heq
      refine ⟨e, he, ?_⟩
      rw [hc.value_record hordered List.mem_cons_self he, ← hv]
      simp [Pass.record]
    · obtain ⟨f, hf, hr⟩ := h.done q hq (by simp [heq, hw])
      -- what was calculated before reads only cells that come before it, so it does not see the new result
      refine ⟨f, hf, ?_⟩
      have hdone : q ∈ done := by
        rw [hcells] at hq
        simpa [heq, hw] using hq
      obtain ⟨front, back, rfl⟩ := List.append_of_mem hdone
      have hsplit : c.plan.cells = front ++ q :: (back ++ p :: rest) := by
        rw [hcells, List.append_assoc, List.cons_append]
      have hordered : c.index.Ordered (q :: (back ++ p :: rest)) := (hsplit ▸ hc.ordered_cells).behind
      rw [hc.value_record hordered (by simp) hf]
      simpa [Pass.record, ExtTreeMap.getElem?_insert, Ne.symm heq] using hr

lemma Halfway.sweep (h : Halfway c [] rest s) (hc : c.Plain d) (hcells : c.plan.cells = done ++ rest) :
    Halfway c [] [] (c.sweep s rest) := by
  induction rest generalizing s done with
  | nil => exact h
  | cons p rest ih =>
    obtain ⟨e, he⟩ := hc.ordered_cells.entry p (by simp [hcells])
    have hsettle : c.settle s p = s.record p ((s.reading c.config.books).value c.registry p e.node) := by
      rw [settle_eq he, h.still.store_eq]
    refine ih (s := c.settle s p) ?_ (show c.plan.cells = (done ++ [p]) ++ rest by simp [hcells])
    rw [hsettle]
    exact h.record hc hcells he (if_neg List.not_mem_nil).symm

lemma halfway_firstPass (hc : c.Still d) : Halfway c [] [] c.firstPass :=
  (halfway_start hc []).sweep hc.toPlain (List.nil_append _).symm

lemma spillReaders_still (hs : s.Still) : c.spillReaders s = [] := by
  simp [spillReaders, movedAnchors, hs.changedAnchors]

lemma again_still (hc : c.Still d) : c.again = [] := spillReaders_still (halfway_firstPass hc).still

lemma halfway_lastPass (hc : c.Still d) : Halfway c [] [] c.lastPass := by
  rw [lastPass, reopened, again_still hc]
  exact halfway_firstPass hc

end Calculation

end Spreadsheet
