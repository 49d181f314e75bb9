import Mathlib.Data.List.Nodup
import Spreadsheet.Dependency.Cycles
import Spreadsheet.Proofs.Dependency.Walk

/-! The cycles that are found are the classes of vertices that lead to each other. -/

namespace Spreadsheet.Dependency.Graph

open Relation

variable (g : Graph)

abbrev Edge : Nat → Nat → Prop := Leads g.next g.size

def OnCycle (v : Nat) : Prop := TransGen g.Edge v v

def Together (u v : Nat) : Prop := TransGen g.Edge u v ∧ TransGen g.Edge v u

variable {g}

lemma lt_size_of_mem_next {v w : Nat} (h : w ∈ g.next v) : v < g.size := by
  by_contra hv
  simp [next, Array.getElem?_eq_none (show g.size ≤ v by omega)] at h

lemma mem_next_modify (r : Graph) (v w x u : Nat) :
    u ∈ Graph.next (r.modify w (v :: ·)) x ↔ u ∈ r.next x ∨ u = v ∧ x = w ∧ x < r.size := by
  by_cases hx : x < r.size
  · by_cases hw : w = x
    · subst hw
      simp only [next, Array.getElem?_modify, if_true, Array.getElem?_eq_getElem hx, Option.map_some,
        Option.getD_some, List.mem_cons, hx, and_self, and_true]
      exact or_comm
    · simp [next, hx, Array.getElem_modify, hw, Ne.symm hw]
  · simp [next, hx]

lemma mem_next_foldl_modify (ws : List Nat) (r : Graph) (v x u : Nat) :
    u ∈ Graph.next (ws.foldl (fun r w => r.modify w (v :: ·)) r) x ↔
      u ∈ r.next x ∨ u = v ∧ x ∈ ws ∧ x < r.size := by
  induction ws generalizing r with
  | nil => simp
  | cons w ws ih =>
    rw [List.foldl_cons, ih, mem_next_modify, Array.size_modify, List.mem_cons]
    tauto

lemma size_foldl_modify (ws : List Nat) (r : Graph) (v : Nat) :
    (ws.foldl (fun r w => r.modify w (v :: ·)) r).size = r.size := by
  induction ws generalizing r with
  | nil => rfl
  | cons w ws ih => rw [List.foldl_cons, ih, Array.size_modify]

lemma reverse_foldl (vs : List Nat) (r : Graph) (x u : Nat) :
    let r' := vs.foldl (fun r v => (g.next v).foldl (fun r w => r.modify w (v :: ·)) r) r
    r'.size = r.size ∧ (u ∈ Graph.next r' x ↔ u ∈ r.next x ∨ u ∈ vs ∧ x ∈ g.next u ∧ x < r.size) := by
  induction vs generalizing r with
  | nil => simp
  | cons v vs ih =>
    obtain ⟨hs, hm⟩ := ih ((g.next v).foldl (fun r w => r.modify w (v :: ·)) r)
    rw [size_foldl_modify] at hs hm
    refine ⟨hs, hm.trans ?_⟩
    rw [mem_next_foldl_modify, List.mem_cons]
    constructor
    · rintro ((h | ⟨rfl, h⟩) | h)
      · exact Or.inl h
      · exact Or.inr ⟨Or.inl rfl, h⟩
      · exact Or.inr ⟨Or.inr h.1, h.2⟩
    · rintro (h | ⟨rfl | h, h'⟩)
      · exact Or.inl (Or.inl h)
      · exact Or.inl (Or.inr ⟨rfl, h'⟩)
      · exact Or.inr ⟨h, h'⟩

variable (g)

lemma size_reverse : g.reverse.size = g.size := by
  have h := (reverse_foldl (g := g) (List.range g.size) (Array.replicate g.size []) 0 0).1
  rwa [Array.size_replicate] at h

lemma edge_reverse (v w : Nat) : g.reverse.Edge w v ↔ g.Edge v w := by
  have hm := (reverse_foldl (g := g) (List.range g.size) (Array.replicate g.size []) w v).2
  rw [← reverse, Array.size_replicate, List.mem_range] at hm
  have hn : v ∉ Graph.next (Array.replicate g.size []) w := by
    by_cases hw : w < g.size <;> simp [next, hw]
  rw [Edge, Leads, size_reverse, hm, Edge, Leads]
  constructor
  · rintro ⟨h | h, _⟩
    · exact (hn h).elim
    · exact h.2
  · rintro ⟨h, hw⟩
    exact ⟨Or.inr ⟨lt_size_of_mem_next h, h, hw⟩, lt_size_of_mem_next h⟩

lemma transGen_reverse (v w : Nat) : TransGen g.reverse.Edge w v ↔ TransGen g.Edge v w := by
  have he : g.reverse.Edge = Function.swap g.Edge := by
    funext w v
    exact propext (g.edge_reverse v w)
  rw [he, transGen_swap]

lemma lt_size_of_transGen {u v : Nat} (h : TransGen g.Edge u v) : v < g.size := by
  cases h with
  | single h => exact h.2
  | tail _ h => exact h.2

lemma marks_foldl (vs : List Nat) (a : Array Bool) (w : Nat) :
    (vs.foldl (fun marks v => marks.setIfInBounds v true) a)[w]? =
      if w ∈ vs ∧ w < a.size then some true else a[w]? := by
  induction vs generalizing a with
  | nil => simp
  | cons v vs ih =>
    rw [List.foldl_cons, ih, Array.size_setIfInBounds, Array.getElem?_setIfInBounds]
    by_cases hw : w < a.size <;> by_cases hv : v = w <;> by_cases hm : w ∈ vs <;>
      simp_all [eq_comm]

lemma marks_get? (size : Nat) (vs : List Nat) {w : Nat} (hw : w < size) :
    (marks size vs)[w]? = some (decide (w ∈ vs)) := by
  rw [marks, marks_foldl]
  by_cases hm : w ∈ vs <;> simp [hw, hm]

lemma mem_component (v w : Nat) : w ∈ g.component g.reverse v ↔ g.Together v w := by
  rw [component, List.mem_mergeSort, List.mem_filter, reachable, mem_reachable, Together]
  refine and_congr_right fun h => ?_
  rw [marks_get? _ _ (g.lt_size_of_transGen h), Option.getD_some, decide_eq_true_iff, reachable,
    mem_reachable, transGen_reverse]

lemma nodup_component (v : Nat) : (g.component g.reverse v).Nodup := by
  rw [component, (List.mergeSort_perm _ _).nodup_iff]
  exact (nodup_reachable v).filter _

/-- Along any ranking, a path has an edge that does not lead down, or it leads down itself. -/
lemma exists_rising (rank : Nat → Nat) {R : Nat → Nat → Prop} {u v : Nat} (h : TransGen R u v) :
    (∃ a b, ReflTransGen R u a ∧ R a b ∧ ReflTransGen R b v ∧ rank a ≤ rank b) ∨ rank v < rank u := by
  induction h with
  | @single v he =>
    by_cases hr : rank u ≤ rank v
    · exact Or.inl ⟨u, v, .refl, he, .refl, hr⟩
    · exact Or.inr (by omega)
  | @tail v w hp he ih =>
    rcases ih with ⟨a, b, hua, hab, hbv, hr⟩ | hlt
    · exact Or.inl ⟨a, b, hua, hab, hbv.tail he, hr⟩
    · by_cases hr : rank v ≤ rank w
      · exact Or.inl ⟨v, w, hp.to_reflTransGen, he, .refl, hr⟩
      · exact Or.inr (by omega)

lemma Together.trans {g : Graph} {u v w : Nat} (h : g.Together u v) (h' : g.Together v w) :
    g.Together u w :=
  ⟨h.1.trans h'.1, h'.2.trans h.2⟩

lemma Together.symm {g : Graph} {u v : Nat} (h : g.Together u v) : g.Together v u := ⟨h.2, h.1⟩

/-- Adds the component of a vertex unless the vertex is covered. -/
def collect (found : List (List Nat)) (v : Nat) : List (List Nat) :=
  if found.any (·.contains v) then found else g.component g.reverse v :: found

structure Collected (found : List (List Nat)) : Prop where
  together : ∀ c ∈ found, ∀ v ∈ c, ∀ w, w ∈ c ↔ g.Together v w
  nodup : found.flatten.Nodup

variable {g}

lemma Collected.collect {found : List (List Nat)} (h : g.Collected found) (v : Nat) :
    g.Collected (g.collect found v) := by
  by_cases hc : found.any (·.contains v)
  · rwa [Graph.collect, if_pos hc]
  · rw [Graph.collect, if_neg hc]
    refine ⟨?_, ?_⟩
    · intro c hm u hu w
      rcases List.mem_cons.1 hm with rfl | hm
      · rw [mem_component] at hu ⊢
        exact ⟨hu.symm.trans, hu.trans⟩
      · exact h.together c hm u hu w
    · rw [List.flatten_cons, List.nodup_append']
      refine ⟨nodup_component g v, h.nodup, ?_⟩
      intro u hu hf
      obtain ⟨c, hm, huc⟩ := List.mem_flatten.1 hf
      have huv := (h.together c hm u huc v).2 ((mem_component g v u).1 hu).symm
      exact hc (List.any_eq_true.2 ⟨c, hm, by simpa using huv⟩)

lemma subset_collect (found : List (List Nat)) (v : Nat) : found ⊆ g.collect found v := by
  rw [Graph.collect]
  split
  · exact List.Subset.refl _
  · exact List.subset_cons_self _ _

lemma mem_flatten_collect {found : List (List Nat)} {v : Nat} (hv : g.OnCycle v) :
    v ∈ (g.collect found v).flatten := by
  rw [Graph.collect]
  split
  next hc => simpa using hc
  next => exact List.mem_append_left _ ((mem_component g v v).2 ⟨hv, hv⟩)

lemma Collected.foldl {found : List (List Nat)} (h : g.Collected found) (vs : List Nat) :
    g.Collected (vs.foldl g.collect found) ∧ found ⊆ vs.foldl g.collect found ∧
      ∀ v ∈ vs, g.OnCycle v → v ∈ (vs.foldl g.collect found).flatten := by
  induction vs generalizing found with
  | nil => exact ⟨h, List.Subset.refl _, by simp⟩
  | cons v vs ih =>
    obtain ⟨hc, hs, hm⟩ := ih (h.collect v)
    refine ⟨hc, List.Subset.trans (subset_collect found v) hs, ?_⟩
    intro u hu hcycle
    rcases List.mem_cons.1 hu with rfl | hu
    · have hu : u ∈ (g.collect found u).flatten := mem_flatten_collect hcycle
      obtain ⟨c, hmem, huc⟩ := List.mem_flatten.1 hu
      exact List.mem_flatten.2 ⟨c, hs hmem, huc⟩
    · exact hm u hu hcycle

lemma flatten_filter_nonempty (l : List (List Nat)) : (l.filter (!·.isEmpty)).flatten = l.flatten := by
  induction l with
  | nil => rfl
  | cons c l ih => cases c <;> simp [ih]

variable (g)

lemma cycles_spec : g.cycles.flatten.Nodup ∧ ∀ v, v ∈ g.cycles.flatten ↔ g.OnCycle v := by
  let rank (v : Nat) := (positions g.size g.finishOrder)[v]?.getD 0
  let sources := g.finishOrder.filter fun v => (g.next v).any fun w => rank v ≤ rank w
  have hnil : g.Collected [] := ⟨by simp, by simp⟩
  obtain ⟨hc, -, hm⟩ := hnil.foldl sources
  have hp : g.cycles.flatten.Perm (sources.foldl g.collect []).flatten := by
    rw [← flatten_filter_nonempty (sources.foldl g.collect [])]
    exact (List.mergeSort_perm _ _).flatten
  refine ⟨hp.nodup_iff.2 hc.nodup, fun v => hp.mem_iff.trans ⟨?_, ?_⟩⟩
  · intro hv
    obtain ⟨c, hmem, hvc⟩ := List.mem_flatten.1 hv
    exact ((hc.together c hmem v hvc v).1 hvc).1
  · intro hv
    rcases exists_rising rank hv with ⟨a, b, hva, hab, hbv, hr⟩ | hr
    · have hav : TransGen g.Edge a v := TransGen.head' hab hbv
      have hsource : a ∈ sources := by
        refine List.mem_filter.2 ⟨mem_finishOrder.2 (lt_size_of_mem_next hab.1), ?_⟩
        exact List.any_eq_true.2 ⟨b, hab.1, by simpa using hr⟩
      obtain ⟨c, hmem, hac⟩ := List.mem_flatten.1 (hm a hsource (hav.trans_left hva))
      refine List.mem_flatten.2 ⟨c, hmem, (hc.together c hmem a hac v).2 ⟨hav, ?_⟩⟩
      exact TransGen.trans_right hva (hav.trans_left hva)
    · omega

/-- The vertices that are on no cycle, each behind what it leads to. -/
def acyclicOrder : List Nat :=
  g.finishOrder.filter fun v => !(marks g.size g.cycles.flatten)[v]?.getD true

lemma unmarked_iff {v : Nat} (hv : v < g.size) :
    (!(marks g.size g.cycles.flatten)[v]?.getD true) = true ↔ ¬ g.OnCycle v := by
  rw [marks_get? _ _ hv, Option.getD_some, Bool.not_eq_true', decide_eq_false_iff_not, g.cycles_spec.2]

lemma mem_acyclicOrder {v : Nat} : v ∈ g.acyclicOrder ↔ v < g.size ∧ ¬ g.OnCycle v := by
  rw [acyclicOrder, List.mem_filter, finishOrder, mem_finishOrder]
  exact and_congr_right fun hv => g.unmarked_iff hv

lemma nodup_acyclicOrder : g.acyclicOrder.Nodup := nodup_finishOrder.filter _

lemma acyclicOrder_before {v w : Nat} (hv : v ∈ g.acyclicOrder) (hw : w ∈ g.acyclicOrder)
    (h : g.Edge v w) : Before g.acyclicOrder w v := by
  obtain ⟨hvs, hvc⟩ := (g.mem_acyclicOrder).1 hv
  rcases finishOrder_before hvs h with hb | hback
  · exact hb.filter (List.mem_filter.1 hw).2 (List.mem_filter.1 hv).2
  · exact (hvc (TransGen.head' h hback)).elim

end Spreadsheet.Dependency.Graph
