import Mathlib.Data.List.Nodup
import Mathlib.Data.List.Sort
import Mathlib.Data.Set.Card
import Spreadsheet.Dependency.Plan
import Spreadsheet.Proofs.Dependency.Cycles
import Spreadsheet.Proofs.Dependency.Spread

/-! A plan holds what is dirty and nothing else, keeps cells on cycles apart, and puts every other cell
behind the cells it reads. -/

namespace Spreadsheet.Dependency

open Std Relation
open scoped List

namespace Index

/-- One formula cell reads from what another one writes. -/
def Reads (i : Index) (p q : Place) : Prop :=
  ∃ e f, i.cell? p = some e ∧ i.cell? q = some f ∧ ∃ r ∈ e.references, r.overlaps f.output = true

def ReadsAmong (i : Index) (excluded : PlaceSet) (p q : Place) : Prop :=
  i.Reads p q ∧ p ∉ excluded ∧ q ∉ excluded

def OnCycle (i : Index) (excluded : PlaceSet) (p : Place) : Prop :=
  TransGen (i.ReadsAmong excluded) p p

end Index

section Vertices

variable (a : Array (Place × Entry))

def placesOf (vertices : List Nat) : List Place := vertices.filterMap fun v => a[v]?.map (·.1)

variable {a}

lemma mem_placesOf {vertices : List Nat} {p : Place} :
    p ∈ placesOf a vertices ↔ ∃ v ∈ vertices, ∃ e, a[v]? = some (p, e) := by
  simp [placesOf, List.mem_filterMap]

lemma vertex_unique (ha : (a.toList.map (·.1)).Nodup) {v w : Nat} {p : Place} {e f : Entry}
    (hv : a[v]? = some (p, e)) (hw : a[w]? = some (p, f)) : v = w := by
  obtain ⟨hv, hve⟩ := Array.getElem?_eq_some_iff.1 hv
  obtain ⟨hw, hwe⟩ := Array.getElem?_eq_some_iff.1 hw
  have hget : (a.toList.map (·.1)).get ⟨v, by simpa using hv⟩ = (a.toList.map (·.1)).get ⟨w, by simpa using hw⟩ := by
    simp [hve, hwe]
  exact Fin.mk.inj (ha.get_inj_iff.1 hget)

lemma nodup_placesOf (ha : (a.toList.map (·.1)).Nodup) {vertices : List Nat} (h : vertices.Nodup) :
    (placesOf a vertices).Nodup := by
  refine h.filterMap ?_
  intro v w p hv hw
  obtain ⟨⟨_, e⟩, hv, rfl⟩ := Option.map_eq_some_iff.1 (Option.mem_def.1 hv)
  obtain ⟨⟨_, f⟩, hw, rfl⟩ := Option.map_eq_some_iff.1 (Option.mem_def.1 hw)
  exact vertex_unique ha ‹a[v]? = _› ‹a[w]? = _›

lemma before_placesOf {vertices : List Nat} {v w : Nat} {p q : Place} {e f : Entry}
    (hv : a[v]? = some (p, e)) (hw : a[w]? = some (q, f)) (h : Before vertices v w) :
    Before (placesOf a vertices) p q := by
  have hs := List.Sublist.filterMap (fun v => a[v]?.map (·.1)) h
  simpa [Before, placesOf, hv, hw] using hs

lemma edge_readGraph {v w : Nat} : (Plan.readGraph a).Edge v w ↔
    ∃ p e q f, a[v]? = some (p, e) ∧ a[w]? = some (q, f) ∧ ∃ r ∈ e.references, r.overlaps f.output = true := by
  have hsize : (Plan.readGraph a).size = a.size := by simp [Plan.readGraph]
  constructor
  · rintro ⟨hm, hw⟩
    have hv : v < a.size := hsize ▸ Graph.lt_size_of_mem_next hm
    rw [hsize] at hw
    have hm' : ∃ r ∈ a[v].2.references, r.overlaps a[w].2.output = true := by
      simpa [Graph.next, Plan.readGraph, hv, hw] using hm
    exact ⟨a[v].1, a[v].2, a[w].1, a[w].2, by simp [hv], by simp [hw], hm'⟩
  · rintro ⟨p, e, q, f, hv, hw, hr⟩
    obtain ⟨hvs, hve⟩ := Array.getElem?_eq_some_iff.1 hv
    obtain ⟨hws, hwe⟩ := Array.getElem?_eq_some_iff.1 hw
    refine ⟨?_, hsize ▸ hws⟩
    simpa [Graph.next, Plan.readGraph, hvs, hws, hve, hwe] using hr

end Vertices

variable (i : Index) (features : List Feature) (c : Changes)

/-- The dirty cells with their formulas, in order. -/
def planned : Array (Place × Entry) :=
  (i.cells.toList.filter fun (p, _) =>
    ((dirty i features c).foldl (fun set t => match t with | .cell p => set.insert p | _ => set)
      (∅ : PlaceSet)).contains p).toArray

namespace Plan

lemma make_cells : (make i features c).cells =
    placesOf (planned i features c) (readGraph (planned i features c)).acyclicOrder := rfl

lemma make_cycles : (make i features c).cycles =
    placesOf (planned i features c) (readGraph (planned i features c)).cycles.flatten := rfl

end Plan

variable {i features c}

lemma mem_foldl_cells (found : List Target) (set : PlaceSet) (p : Place) :
    p ∈ found.foldl (fun set t => match t with | .cell p => set.insert p | _ => set) set ↔
      .cell p ∈ found ∨ p ∈ set := by
  induction found generalizing set with
  | nil => simp
  | cons t found ih =>
    rw [List.foldl_cons, ih]
    cases t with
    | cell q =>
      simp only [ExtTreeSet.mem_insert, Std.compare_eq_iff_eq, List.mem_cons, Target.cell.injEq]
      grind
    | other k => simp
    | feature n k => simp

lemma planned_get? {p : Place} {e : Entry} : (∃ v : Nat, (planned i features c)[v]? = some (p, e)) ↔
    i.cell? p = some e ∧ .cell p ∈ dirty i features c := by
  rw [← Array.mem_iff_getElem?, planned, List.mem_toArray, List.mem_filter,
    ExtTreeMap.mem_toList_iff_getElem?_eq_some, ExtTreeSet.contains_iff_mem, mem_foldl_cells]
  simp [Index.cell?]

lemma nodup_planned : ((planned i features c).toList.map (·.1)).Nodup := by
  rw [planned]
  refine List.Nodup.sublist (List.filter_sublist.map _) ?_
  rw [ExtTreeMap.map_fst_toList_eq_keys]
  exact ExtTreeMap.nodup_keys

lemma dirty_cell {p : Place} (h : .cell p ∈ dirty i features c) :
    p ∉ c.excluded ∧ ∃ e, i.cell? p = some e := by
  rw [dirty_eq] at h
  obtain ⟨d, hd, ht⟩ := List.mem_map.1 h
  rcases mem_all.1 (affected_subperm.subset hd) with ⟨q, e, hq, hx, rfl⟩ | ⟨k, e, _, rfl⟩ | ⟨n, f, _, rfl⟩
  · obtain rfl := Target.cell.inj ht
    exact ⟨hx, e, hq⟩
  · cases ht
  · cases ht

lemma dirty_other {k : ItemKey} (h : .other k ∈ dirty i features c) : ∃ e, i.other? k = some e := by
  rw [dirty_eq] at h
  obtain ⟨d, hd, ht⟩ := List.mem_map.1 h
  rcases mem_all.1 (affected_subperm.subset hd) with ⟨q, e, _, _, rfl⟩ | ⟨l, e, hl, rfl⟩ | ⟨n, f, _, rfl⟩
  · cases ht
  · obtain rfl := Target.other.inj ht
    exact ⟨e, hl⟩
  · cases ht

lemma dirty_of_reads {p q : Place} (h : i.Reads p q) (hp : p ∉ c.excluded)
    (hq : .cell q ∈ dirty i features c) : .cell p ∈ dirty i features c := by
  obtain ⟨e, f, he, hf, hr⟩ := h
  refine closed_dirty.cell p e he hp (Or.inr (Or.inr ⟨f.output, ?_, hr⟩))
  exact Or.inr (Or.inl ⟨q, f, hf, hq, rfl⟩)

lemma reads_of_edge {v w : Nat} {p q : Place} {e f : Entry} (hv : (planned i features c)[v]? = some (p, e))
    (hw : (planned i features c)[w]? = some (q, f)) :
    (Plan.readGraph (planned i features c)).Edge v w ↔ i.ReadsAmong c.excluded p q := by
  have hp := planned_get?.1 ⟨v, hv⟩
  have hq := planned_get?.1 ⟨w, hw⟩
  rw [edge_readGraph]
  constructor
  · rintro ⟨p', e', q', f', hv', hw', hr⟩
    obtain ⟨rfl, rfl⟩ := Prod.mk.inj (Option.some.inj (hv.symm.trans hv'))
    obtain ⟨rfl, rfl⟩ := Prod.mk.inj (Option.some.inj (hw.symm.trans hw'))
    exact ⟨⟨e, f, hp.1, hq.1, hr⟩, (dirty_cell hp.2).1, (dirty_cell hq.2).1⟩
  · rintro ⟨⟨e', f', he', hf', hr⟩, _, _⟩
    obtain rfl := Option.some.inj (hp.1.symm.trans he')
    obtain rfl := Option.some.inj (hq.1.symm.trans hf')
    exact ⟨p, e, q, f, hv, hw, hr⟩

lemma vertex_of_edge {v w : Nat} (h : (Plan.readGraph (planned i features c)).Edge v w) :
    (∃ p e, (planned i features c)[v]? = some (p, e)) ∧ ∃ q f, (planned i features c)[w]? = some (q, f) := by
  obtain ⟨p, e, q, f, hv, hw, _⟩ := edge_readGraph.1 h
  exact ⟨⟨p, e, hv⟩, q, f, hw⟩

lemma path_of_edges {v w : Nat} {p q : Place} {e f : Entry} (hv : (planned i features c)[v]? = some (p, e))
    (hw : (planned i features c)[w]? = some (q, f))
    (h : TransGen (Plan.readGraph (planned i features c)).Edge v w) :
    TransGen (i.ReadsAmong c.excluded) p q := by
  induction h generalizing q f with
  | single he => exact .single ((reads_of_edge hv hw).1 he)
  | tail _ he ih =>
    obtain ⟨⟨r, g, hx⟩, _⟩ := vertex_of_edge he
    exact (ih hx).tail ((reads_of_edge hx hw).1 he)

lemma edges_of_path {p q : Place} {w : Nat} {f : Entry} (hw : (planned i features c)[w]? = some (q, f))
    (h : TransGen (i.ReadsAmong c.excluded) p q) : ∃ v e, (planned i features c)[v]? = some (p, e) ∧
      TransGen (Plan.readGraph (planned i features c)).Edge v w := by
  have vertex : ∀ {x y : Place}, i.ReadsAmong c.excluded x y → .cell y ∈ dirty i features c →
      ∃ (v : Nat) (e : Entry), (planned i features c)[v]? = some (x, e) := fun {x y} hxy hy => by
    obtain ⟨e, he⟩ := (dirty_cell (dirty_of_reads hxy.1 hxy.2.1 hy)).2
    obtain ⟨v, hv⟩ := planned_get?.2 ⟨he, dirty_of_reads hxy.1 hxy.2.1 hy⟩
    exact ⟨v, e, hv⟩
  induction h using TransGen.head_induction_on with
  | single hxy =>
    obtain ⟨v, e, hv⟩ := vertex hxy (planned_get?.1 ⟨w, hw⟩).2
    exact ⟨v, e, hv, .single ((reads_of_edge hv hw).2 hxy)⟩
  | head hxy _ ih =>
    obtain ⟨u, g, hu, hp⟩ := ih
    obtain ⟨v, e, hv⟩ := vertex hxy (planned_get?.1 ⟨u, hu⟩).2
    exact ⟨v, e, hv, .head ((reads_of_edge hv hu).2 hxy) hp⟩

lemma onCycle_iff {v : Nat} {p : Place} {e : Entry} (hv : (planned i features c)[v]? = some (p, e)) :
    (Plan.readGraph (planned i features c)).OnCycle v ↔ i.OnCycle c.excluded p := by
  constructor
  · exact path_of_edges hv hv
  · intro h
    obtain ⟨w, f, hw, hp⟩ := edges_of_path hv h
    obtain rfl := vertex_unique nodup_planned hw hv
    exact hp

namespace Plan

lemma mem_cycles {p : Place} :
    p ∈ (make i features c).cycles ↔ .cell p ∈ dirty i features c ∧ i.OnCycle c.excluded p := by
  rw [make_cycles, mem_placesOf]
  constructor
  · rintro ⟨v, hv, e, he⟩
    exact ⟨(planned_get?.1 ⟨v, he⟩).2, (onCycle_iff he).1 (((Graph.cycles_spec _).2 v).1 hv)⟩
  · rintro ⟨hd, hc⟩
    obtain ⟨e, he⟩ := (dirty_cell hd).2
    obtain ⟨v, hv⟩ := planned_get?.2 ⟨he, hd⟩
    exact ⟨v, ((Graph.cycles_spec _).2 v).2 ((onCycle_iff hv).2 hc), e, hv⟩

lemma lt_size_of_get? {v : Nat} {x : Place × Entry} (h : (planned i features c)[v]? = some x) :
    v < (readGraph (planned i features c)).size := by
  simpa [readGraph] using (Array.getElem?_eq_some_iff.1 h).1

lemma mem_order {v : Nat} {p : Place} {e : Entry} (hv : (planned i features c)[v]? = some (p, e)) :
    v ∈ (readGraph (planned i features c)).acyclicOrder ↔ ¬ i.OnCycle c.excluded p := by
  rw [Graph.mem_acyclicOrder, onCycle_iff hv]
  exact and_iff_right (lt_size_of_get? hv)

lemma mem_cells {p : Place} :
    p ∈ (make i features c).cells ↔ .cell p ∈ dirty i features c ∧ ¬ i.OnCycle c.excluded p := by
  rw [make_cells, mem_placesOf]
  constructor
  · rintro ⟨v, hv, e, he⟩
    exact ⟨(planned_get?.1 ⟨v, he⟩).2, (mem_order he).1 hv⟩
  · rintro ⟨hd, hc⟩
    obtain ⟨e, he⟩ := (dirty_cell hd).2
    obtain ⟨v, hv⟩ := planned_get?.2 ⟨he, hd⟩
    exact ⟨v, (mem_order hv).2 hc, e, hv⟩

lemma nodup_cells : (make i features c).cells.Nodup :=
  nodup_placesOf nodup_planned (Graph.nodup_acyclicOrder _)

lemma before_of_reads {p q : Place} (hp : p ∈ (make i features c).cells)
    (hq : q ∈ (make i features c).cells) (h : i.Reads p q) : Before (make i features c).cells q p := by
  obtain ⟨hdp, hcp⟩ := mem_cells.1 hp
  obtain ⟨hdq, hcq⟩ := mem_cells.1 hq
  obtain ⟨e, he⟩ := (dirty_cell hdp).2
  obtain ⟨f, hf⟩ := (dirty_cell hdq).2
  obtain ⟨v, hv⟩ := planned_get?.2 ⟨he, hdp⟩
  obtain ⟨w, hw⟩ := planned_get?.2 ⟨hf, hdq⟩
  have hedge := (reads_of_edge hv hw).2 ⟨h, (dirty_cell hdp).1, (dirty_cell hdq).1⟩
  rw [make_cells]
  exact before_placesOf hw hv
    (Graph.acyclicOrder_before _ ((mem_order hv).2 hcp) ((mem_order hw).2 hcq) hedge)

end Plan

/-! What else is dirty, and what the plan does not depend on. -/

/-- The same changes up to their order and repetitions. -/
structure Changes.Same (c c' : Changes) : Prop where
  ranges : ∀ r, r ∈ c.ranges ↔ r ∈ c'.ranges
  names : ∀ n, n ∈ c.names ↔ n ∈ c'.names
  sheetNames : ∀ n, n ∈ c.sheetNames ↔ n ∈ c'.sheetNames
  features : c.features = c'.features
  others : c.others = c'.others
  excluded : c.excluded = c'.excluded
  force : c.force = c'.force
  volatile : c.volatile = c'.volatile

lemma any_congr_mem {α : Type} {l l' : List α} (h : ∀ x, x ∈ l ↔ x ∈ l') (p : α → Bool) :
    l.any p = l'.any p := by
  rw [Bool.eq_iff_iff]
  simp only [List.any_eq_true, h]

lemma dirty_congr {c' : Changes} (h : c.Same c') : dirty i features c = dirty i features c' := by
  have hm : ∀ book e, Dependent.mentionsChange c book e = Dependent.mentionsChange c' book e := fun book e => by
    simp only [Dependent.mentionsChange, any_congr_mem h.ranges, any_congr_mem h.names,
      any_congr_mem h.sheetNames, h.force, h.volatile]
  have hc : Dependent.ofCell c = Dependent.ofCell c' := by
    funext p e
    simp only [Dependent.ofCell, hm, any_congr_mem h.ranges]
  have ho : Dependent.ofOther c = Dependent.ofOther c' := by
    funext k e
    simp only [Dependent.ofOther, hm, h.others]
  have hf : Dependent.ofFeature c = Dependent.ofFeature c' := by
    funext n f
    simp only [Dependent.ofFeature, any_congr_mem h.ranges, h.features]
  have ha : Dependent.all i features c = Dependent.all i features c' := by
    simp only [Dependent.all, hc, ho, hf, h.excluded]
  rw [dirty, dirty, ha]

lemma mem_foldl_others (found : List Target) (set : ItemSet) (k : ItemKey) :
    k ∈ found.foldl (fun set t => match t with | .other k => set.insert k | _ => set) set ↔
      .other k ∈ found ∨ k ∈ set := by
  induction found generalizing set with
  | nil => simp
  | cons t found ih =>
    rw [List.foldl_cons, ih]
    cases t with
    | cell p => simp
    | other l =>
      simp only [ExtTreeSet.mem_insert, Std.compare_eq_iff_eq, List.mem_cons, Target.other.injEq]
      grind
    | feature n l => simp

/-- The positions at which a feature with the given key is found. -/
def positionsOf (found : List Target) (k : ItemKey) : List Nat :=
  found.filterMap fun t => match t with
    | .feature n l => if l = k then some n else none
    | _ => none

lemma mem_positionsOf {found : List Target} {k : ItemKey} {n : Nat} :
    n ∈ positionsOf found k ↔ .feature n k ∈ found := by
  rw [positionsOf, List.mem_filterMap]
  constructor
  · rintro ⟨t, ht, h⟩
    cases t with
    | feature m l =>
      simp only [Option.ite_none_right_eq_some, Option.some.injEq] at h
      obtain ⟨rfl, rfl⟩ := h
      exact ht
    | cell | other => cases h
  · intro h
    exact ⟨_, h, by simp⟩

lemma nodup_positionsOf {found : List Target} (h : found.Nodup) (k : ItemKey) :
    (positionsOf found k).Nodup := by
  refine h.filterMap ?_
  intro t u n ht hu
  cases t with
  | feature l x =>
    cases u with
    | feature m y =>
      simp only [Option.mem_def, Option.ite_none_right_eq_some, Option.some.injEq] at ht hu
      obtain ⟨rfl, rfl⟩ := ht
      obtain ⟨rfl, rfl⟩ := hu
      rfl
    | cell | other => cases hu
  | cell | other => cases ht

lemma count_features (found : List Target) (k : ItemKey) :
    (found.filterMap fun t => match t with | .feature _ l => some l | _ => none).count k =
      (positionsOf found k).length := by
  induction found with
  | nil => rfl
  | cons t found ih =>
    cases t with
    | feature n l =>
      by_cases hl : l = k
      · subst hl
        simpa [positionsOf] using ih
      · simpa [positionsOf, hl] using ih
    | cell | other => simpa [positionsOf] using ih

lemma ncard_positions {found : List Target} (h : found.Nodup) (k : ItemKey) :
    {n : Nat | Target.feature n k ∈ found}.ncard = (positionsOf found k).length := by
  have hs : {n : Nat | Target.feature n k ∈ found} = (positionsOf found k).toFinset := by
    ext n
    simp [mem_positionsOf]
  rw [hs, Set.ncard_coe_finset, List.toFinset_card_of_nodup (nodup_positionsOf h k)]

namespace Plan

lemma mem_others {k : ItemKey} : k ∈ (make i features c).others ↔ .other k ∈ dirty i features c := by
  have h := mem_foldl_others (dirty i features c) ∅ k
  simp only [ExtTreeSet.not_mem_empty, or_false] at h
  exact ExtTreeSet.mem_toList.trans h

lemma count_features {k : ItemKey} : (make i features c).features.count k =
    {n : Nat | Target.feature n k ∈ dirty i features c}.ncard := by
  rw [ncard_positions nodup_dirty, ← Dependency.count_features]
  exact (List.mergeSort_perm _ _).count_eq k

lemma mem_features {k : ItemKey} :
    k ∈ (make i features c).features ↔ ∃ n, Target.feature n k ∈ dirty i features c := by
  refine (List.mergeSort_perm _ _).mem_iff.trans ?_
  rw [List.mem_filterMap]
  constructor
  · rintro ⟨t, ht, hk⟩
    cases t with
    | feature n l =>
      obtain rfl := Option.some.inj hk
      exact ⟨n, ht⟩
    | cell | other => cases hk
  · rintro ⟨n, hn⟩
    exact ⟨_, hn, rfl⟩

/-- A plan holds the least set closed under the rules of what is dirty, a feature as often as its key is
found. -/
theorem make_reaches (i : Index) (features : List Feature) (c : Changes) :
    (∃ S : Set Target, IsLeast {S | Closed i features c S} S ∧
      (∀ p, p ∈ (make i features c).cells ∨ p ∈ (make i features c).cycles ↔ .cell p ∈ S) ∧
      (∀ k, k ∈ (make i features c).others ↔ .other k ∈ S) ∧
      (∀ k, (make i features c).features.count k = {n : Nat | .feature n k ∈ S}.ncard) ∧
      ∀ p ∈ c.excluded, .cell p ∉ S) ∧
    ∀ c' : Changes, c.Same c' → make i features c' = make i features c := by
  refine ⟨⟨{t | t ∈ dirty i features c}, isLeast_dirty, ?_, fun k => mem_others, fun k => count_features, ?_⟩, ?_⟩
  · intro p
    rw [mem_cells, mem_cycles, ← and_or_left, or_comm]
    exact and_iff_left (em _)
  · intro p hp hd
    exact (dirty_cell hd).1 hp
  · intro c' h
    simp only [make, dirty_congr h]

end Plan

end Spreadsheet.Dependency
