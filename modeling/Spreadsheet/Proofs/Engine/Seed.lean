import Spreadsheet.Engine.Calculation
import Spreadsheet.Proofs.Evaluation.Pass

/-! The pass that a calculation starts with. -/

namespace Spreadsheet

open Std Dependency

namespace Config

variable {c : Config} {a p : Place} {r : Range}

lemma mem_arrayValuesIn {q : Region} {y : Position × Scalar} : y ∈ c.arrayValuesIn q ↔
    ∃ p, q.contains p = true ∧ c.arrayValues[p]? = some y.2 ∧ p.position = y.1 := by
  simp only [arrayValuesIn, List.mem_map, List.mem_filter, Prod.exists, ExtTreeMap.mem_toList_iff_getElem?_eq_some]
  constructor
  · rintro ⟨p, w, ⟨hw, hp⟩, rfl⟩
    exact ⟨p, hp, hw, rfl⟩
  · rintro ⟨p, hp, hw, hy⟩
    exact ⟨p, y.2, ⟨hw, hp⟩, Prod.ext hy rfl⟩

lemma mem_filter_arrayValuesIn {y : Position × Scalar} :
    y ∈ (c.arrayValuesIn (a.area r)).filter (fun y => r.contains y.1.row y.1.col) ↔
      ∃ p, (a.area r).contains p = true ∧ c.arrayValues[p]? = some y.2 ∧ p.position = y.1 := by
  rw [List.mem_filter, mem_arrayValuesIn, and_iff_left_iff_imp]
  rintro ⟨p, hp, -, hy⟩
  simp only [Place.area, Region.contains, Bool.and_eq_true] at hp
  rw [← hy]
  exact hp.2

end Config

namespace Pass

variable {s : Pass} {c : Config} {a b x p : Place} {r : Range} {v : Value}

/-! Arrays of earlier passes. -/

lemma spilled_addSpill (s : Pass) (c : Config) (a : Place) (r : Range) (x : Place) (v : Value) :
    (s.addSpill a r (c.arrayValuesIn (a.area r))).spilled[x]? = some v ↔
      (∃ w, (a.area r).contains x = true ∧ c.arrayValues[x]? = some w ∧ .ofScalar w = v) ∨
        ((a.area r).contains x = true → c.arrayValues[x]? = none) ∧ s.spilled[x]? = some v := by
  have hplace : ∀ p : Place, (a.area r).contains p = true → beside a (p.position.row, p.position.col) = p :=
    fun _ hp => beside_of_contains hp
  have hsame : ∀ y ∈ (c.arrayValuesIn (a.area r)).filter (fun y => r.contains y.1.row y.1.col),
      ∀ z ∈ (c.arrayValuesIn (a.area r)).filter (fun y => r.contains y.1.row y.1.col),
      beside a (y.1.row, y.1.col) = beside a (z.1.row, z.1.col) → Value.ofScalar y.2 = .ofScalar z.2 := by
    intro y hy z hz hyz
    obtain ⟨p, hp, hy, hpy⟩ := Config.mem_filter_arrayValuesIn.1 hy
    obtain ⟨q, hq, hz, hqz⟩ := Config.mem_filter_arrayValuesIn.1 hz
    rw [← hpy, ← hqz, hplace p hp, hplace q hq] at hyz
    rw [hyz, hz] at hy
    rw [Option.some.inj hy]
  refine (Table.getElem?_foldl_insert (fun y : Position × Scalar => beside a (y.1.row, y.1.col)) hsame s.spilled x
    v).trans
    (or_congr ?_ (and_congr_left' ?_))
  · constructor
    · rintro ⟨y, hy, hx, rfl⟩
      obtain ⟨p, hp, hv, hpy⟩ := Config.mem_filter_arrayValuesIn.1 hy
      rw [← hpy, hplace p hp] at hx
      exact ⟨y.2, hx ▸ hp, hx ▸ hv, rfl⟩
    · rintro ⟨w, hx, hw, rfl⟩
      exact ⟨(x.position, w), Config.mem_filter_arrayValuesIn.2 ⟨x, hx, hw, rfl⟩, hplace x hx, rfl⟩
  · constructor
    · intro h hx
      rw [Option.eq_none_iff_forall_ne_some]
      intro w hw
      exact h (x.position, w) (Config.mem_filter_arrayValuesIn.2 ⟨x, hx, hw, rfl⟩) (hplace x hx)
    · intro h y hy hx
      obtain ⟨p, hp, hv, hpy⟩ := Config.mem_filter_arrayValuesIn.1 hy
      rw [← hpy, hplace p hp] at hx
      rw [← hx, hv] at h
      exact nomatch h hp

end Pass

namespace Pass

/-- Two passes that know of the same arrays. -/
structure SameArrays (s t : Pass) : Prop where
  anchors : s.anchors = t.anchors
  spilled : s.spilled = t.spilled
  changedAnchors : s.changedAnchors = t.changedAnchors
  spillArrays : s.spillArrays = t.spillArrays

variable {s t : Pass} {l : List Place} {p q : Place}

lemma SameArrays.trans {u : Pass} (h : s.SameArrays t) (h' : t.SameArrays u) : s.SameArrays u :=
  ⟨h.anchors.trans h'.anchors, h.spilled.trans h'.spilled, h.changedAnchors.trans h'.changedAnchors,
    h.spillArrays.trans h'.spillArrays⟩

/-! Cells on cycles. -/

lemma sameArrays_foldl_markCycle (l : List Place) (s : Pass) : (l.foldl markCycle s).SameArrays s := by
  induction l generalizing s with
  | nil => exact ⟨rfl, rfl, rfl, rfl⟩
  | cons p l ih => exact (ih (s.markCycle p)).trans ⟨rfl, rfl, rfl, rfl⟩

lemma results_foldl_markCycle (l : List Place) (s : Pass) (p : Place) :
    (l.foldl markCycle s).results[p]? = if p ∈ l then some (.error .cycle) else s.results[p]? := by
  induction l generalizing s with
  | nil => simp
  | cons q l ih =>
    rw [List.foldl_cons, ih]
    simp only [markCycle, ExtTreeMap.getElem?_insert, Std.compare_eq_iff_eq, List.mem_cons]
    grind

lemma mem_cycles_foldl_markCycle (l : List Place) (s : Pass) (p : Place) :
    p ∈ (l.foldl markCycle s).cycles ↔ p ∈ l ∨ p ∈ s.cycles := by
  induction l generalizing s with
  | nil => simp
  | cons q l ih =>
    rw [List.foldl_cons, ih]
    simp only [markCycle, ExtTreeSet.mem_insert, Std.compare_eq_iff_eq, List.mem_cons]
    grind

lemma dirty_foldl_markCycle (l : List Place) (h : s.dirty = ∅) : (l.foldl markCycle s).dirty = ∅ := by
  induction l generalizing s with
  | nil => exact h
  | cons q l ih =>
    refine ih (s := s.markCycle q) ?_
    simp [markCycle, h]

lemma mem_dirty_markDirty (l : List Place) (s : Pass) (p : Place) :
    p ∈ (s.markDirty l).dirty ↔ p ∈ l ∨ p ∈ s.dirty := Table.mem_foldl_insert l s.dirty p

/-! Cells to be calculated once more. -/

lemma sameArrays_invalidate (s : Pass) (p : Place) : (s.invalidate p).SameArrays s := by
  unfold invalidate
  split <;> exact ⟨rfl, rfl, rfl, rfl⟩

lemma sameArrays_foldl_invalidate (l : List Place) (s : Pass) : (l.foldl invalidate s).SameArrays s := by
  induction l generalizing s with
  | nil => exact ⟨rfl, rfl, rfl, rfl⟩
  | cons p l ih => exact (ih (s.invalidate p)).trans (s.sameArrays_invalidate p)

lemma cycles_invalidate (s : Pass) (p : Place) : (s.invalidate p).cycles = s.cycles := by
  unfold invalidate
  split <;> rfl

lemma cycles_foldl_invalidate (l : List Place) (s : Pass) : (l.foldl invalidate s).cycles = s.cycles := by
  induction l generalizing s with
  | nil => rfl
  | cons p l ih => exact (ih (s.invalidate p)).trans (s.cycles_invalidate p)

lemma results_foldl_invalidate (h : q ∈ l → q ∉ s.cycles) :
    (l.foldl invalidate s).results[q]? = if q ∈ l then none else s.results[q]? := by
  induction l generalizing s with
  | nil => simp
  | cons p l ih =>
    have hresults : (s.invalidate p).results[q]? = if q = p then none else s.results[q]? := by
      unfold invalidate
      split
      · rename_i hp
        rw [if_neg]
        rintro rfl
        exact h List.mem_cons_self (ExtTreeSet.contains_iff_mem.1 hp)
      · simp only [ExtTreeMap.getElem?_erase, Std.compare_eq_iff_eq]
        exact if_congr eq_comm rfl rfl
    rw [List.foldl_cons, ih (by rw [cycles_invalidate]; exact fun hq => h (List.mem_cons_of_mem _ hq)), hresults]
    simp only [List.mem_cons]
    grind

lemma mem_dirty_foldl_invalidate (h : q ∈ (l.foldl invalidate s).dirty) : q ∈ l ∨ q ∈ s.dirty := by
  induction l generalizing s with
  | nil => exact Or.inr h
  | cons p l ih =>
    rcases ih h with hq | hq
    · exact Or.inl (List.mem_cons_of_mem _ hq)
    · unfold invalidate at hq
      split at hq
      · exact Or.inr hq
      · rcases ExtTreeSet.mem_insert.1 hq with hq | hq
        · exact Or.inl (List.mem_cons.2 (Or.inl (Std.compare_eq_iff_eq.1 hq).symm))
        · exact Or.inr hq

lemma mem_dirty_foldl_invalidate_of_mem (hq : q ∈ l) (h : q ∉ s.cycles) : q ∈ (l.foldl invalidate s).dirty := by
  have hkeeps : ∀ (l : List Place) (t : Pass), q ∈ t.dirty → q ∈ (l.foldl invalidate t).dirty := by
    intro l t ht
    refine List.foldlRecOn (motive := fun t : Pass => q ∈ t.dirty) l _ ht fun t ht p _ => ?_
    unfold invalidate
    split
    · exact ht
    · exact ExtTreeSet.mem_insert.2 (Or.inr ht)
  induction l generalizing s with
  | nil => exact nomatch hq
  | cons p l ih =>
    rcases List.mem_cons.1 hq with rfl | hq
    · refine hkeeps l _ ?_
      unfold invalidate
      rw [if_neg (by rwa [ExtTreeSet.contains_iff_mem])]
      exact ExtTreeSet.mem_insert_self
    · exact ih (s := s.invalidate p) hq (by rwa [cycles_invalidate])

end Pass

namespace Calculation

variable {c : Config} {o : Options} {x : Place} {v : Value}

lemma seededPass_eq : seededPass c o =
    c.arrayRanges.toList.foldl (fun s y => s.addSpill y.1 y.2 (c.arrayValuesIn (y.1.area y.2)))
      { spillArrays := o.spillArrays } := by
  rw [seededPass, ExtTreeMap.foldl_eq_foldl_toList]
  rfl

/-- Spilled arrays are all that a pass knows of earlier ones. -/
lemma seededPass_spare : (seededPass c o).results = ∅ ∧ (seededPass c o).changedAnchors = ∅ ∧
    (seededPass c o).dirty = ∅ ∧ (seededPass c o).cycles = ∅ ∧ (seededPass c o).spillArrays = o.spillArrays := by
  rw [seededPass_eq]
  have hfold : ∀ (l : List (Place × Range)) (s : Pass), s.results = ∅ ∧ s.changedAnchors = ∅ ∧ s.dirty = ∅ ∧
      s.cycles = ∅ ∧ s.spillArrays = o.spillArrays →
      let t := l.foldl (fun s y => s.addSpill y.1 y.2 (c.arrayValuesIn (y.1.area y.2))) s
      t.results = ∅ ∧ t.changedAnchors = ∅ ∧ t.dirty = ∅ ∧ t.cycles = ∅ ∧ t.spillArrays = o.spillArrays := by
    intro l
    induction l with
    | nil => exact fun _ h => h
    | cons y l ih => exact fun s h => ih (s.addSpill y.1 y.2 _) h
  exact hfold _ _ ⟨rfl, rfl, rfl, rfl, rfl⟩

lemma anchors_seededPass : (seededPass c o).anchors = c.arrayRanges := by
  have hfold : ∀ (l : List (Place × Range)) (s : Pass),
      (l.foldl (fun s y => s.addSpill y.1 y.2 (c.arrayValuesIn (y.1.area y.2))) s).anchors =
        l.foldl (fun m y => m.insert y.1 y.2) s.anchors := by
    intro l
    induction l with
    | nil => exact fun _ => rfl
    | cons y l ih => exact fun s => ih (s.addSpill y.1 y.2 _)
  have hself := Table.foldl_insert_self c.arrayRanges
  rw [ExtTreeMap.foldl_eq_foldl_toList] at hself
  rw [seededPass_eq, hfold]
  exact hself

lemma spilled_seededPass : (seededPass c o).spilled[x]? = some v ↔
    (∃ (a : Place) (r : Range), c.arrayRanges[a]? = some r ∧ (a.area r).contains x = true) ∧
      ∃ w, c.arrayValues[x]? = some w ∧ .ofScalar w = v := by
  have hfold : ∀ (l : List (Place × Range)) (s : Pass),
      (l.foldl (fun s y => s.addSpill y.1 y.2 (c.arrayValuesIn (y.1.area y.2))) s).spilled[x]? = some v ↔
        ((∃ y ∈ l, (y.1.area y.2).contains x = true) ∧ ∃ w, c.arrayValues[x]? = some w ∧ .ofScalar w = v) ∨
          ((∃ y ∈ l, (y.1.area y.2).contains x = true) → c.arrayValues[x]? = none) ∧ s.spilled[x]? = some v := by
    intro l
    induction l with
    | nil => simp
    | cons y l ih =>
      intro s
      rw [List.foldl_cons, ih, Pass.spilled_addSpill]
      simp only [List.mem_cons, exists_eq_or_imp]
      cases c.arrayValues[x]? <;> grind
  rw [seededPass_eq, hfold]
  simp only [Prod.exists, ExtTreeMap.mem_toList_iff_getElem?_eq_some]
  refine or_iff_left fun h => ?_
  have hempty : (∅ : PlaceMap Value)[x]? = some v := h.2
  simp at hempty

/-- The pass in which the planned cells are calculated. -/
def start (c : Calculation) : Pass :=
  (c.plan.cycles.foldl Pass.markCycle (seededPass c.config c.options)).markDirty c.plan.cells

variable (c : Calculation)

lemma sameArrays_start : c.start.SameArrays (seededPass c.config c.options) := by
  have h := Pass.sameArrays_foldl_markCycle c.plan.cycles (seededPass c.config c.options)
  exact ⟨h.anchors, h.spilled, h.changedAnchors, h.spillArrays⟩

lemma anchors_start : c.start.anchors = c.config.arrayRanges := by
  rw [(sameArrays_start c).anchors, anchors_seededPass]

lemma changedAnchors_start : c.start.changedAnchors = ∅ := (sameArrays_start c).changedAnchors.trans seededPass_spare.2.1

lemma spillArrays_start : c.start.spillArrays = c.options.spillArrays :=
  (sameArrays_start c).spillArrays.trans seededPass_spare.2.2.2.2

lemma results_start (p : Place) :
    c.start.results[p]? = if p ∈ c.plan.cycles then some (.error .cycle) else none := by
  refine (Pass.results_foldl_markCycle c.plan.cycles (seededPass c.config c.options) p).trans ?_
  rw [seededPass_spare.1, ExtTreeMap.getElem?_empty]

lemma mem_cycles_start {p : Place} : p ∈ c.start.cycles ↔ p ∈ c.plan.cycles := by
  refine (Pass.mem_cycles_foldl_markCycle c.plan.cycles (seededPass c.config c.options) p).trans ?_
  rw [seededPass_spare.2.2.2.1]
  simp

lemma mem_dirty_start {p : Place} : p ∈ c.start.dirty ↔ p ∈ c.plan.cells := by
  rw [start, Pass.mem_dirty_markDirty, Pass.dirty_foldl_markCycle _ seededPass_spare.2.2.1]
  simp

end Calculation

end Spreadsheet
