import Mathlib.Data.List.Nodup
import Mathlib.Data.List.Perm.Subperm
import Mathlib.Order.Bounds.Basic
import Mathlib.Tactic.Lemma
import Spreadsheet.Dependency.Spread

/-! What is dirty is the least set that holds what is dirty from the start and all that reads something
written by one of its members. -/

namespace Spreadsheet.Dependency

open Std
open scoped List

/-! Spreading from a frontier, whatever the dependents are. -/

lemma mem_spread_of_mem_frontier {frontier rest : List Dependent} {d : Dependent} (h : d ∈ frontier) :
    d ∈ spread frontier rest := by
  fun_induction spread frontier rest with
  | case1 => simp at h
  | case2 e frontier rest ih =>
    rcases List.mem_cons.1 h with rfl | h
    · exact List.mem_cons_self
    · exact List.mem_cons_of_mem _ (ih (List.mem_append_right _ h))

lemma spread_subperm (frontier rest : List Dependent) :
    (spread frontier rest).Subperm (frontier ++ rest) := by
  fun_induction spread frontier rest with
  | case1 => exact List.nil_subperm
  | case2 d frontier rest ih =>
    refine ((List.subperm_cons d).2 ih).trans (List.Perm.subperm ?_)
    have hp : (readers d rest ++ nonReaders d rest).Perm rest := List.filter_append_perm _ rest
    calc d :: (readers d rest ++ frontier ++ nonReaders d rest)
      _ ~ d :: (frontier ++ (readers d rest ++ nonReaders d rest)) := by
        simpa [List.append_assoc] using (List.perm_append_comm.append_right _).cons d
      _ ~ d :: (frontier ++ rest) := (hp.append_left _).cons d

lemma mem_spread_of_readsFrom {frontier rest : List Dependent} {d e : Dependent}
    (hd : d ∈ spread frontier rest) (he : e ∈ rest) (h : e.readsFrom d = true) :
    e ∈ spread frontier rest := by
  fun_induction spread frontier rest with
  | case1 => simp at hd
  | case2 x frontier rest ih =>
    by_cases hx : e.readsFrom x = true
    · have hm : e ∈ readers x rest := List.mem_filter.2 ⟨he, hx⟩
      exact List.mem_cons_of_mem _ (mem_spread_of_mem_frontier (List.mem_append_left _ hm))
    · rcases List.mem_cons.1 hd with rfl | hd
      · exact absurd h hx
      · exact List.mem_cons_of_mem _ (ih hd (List.mem_filter.2 ⟨he, by simpa using hx⟩))

lemma spread_induction {frontier rest : List Dependent} (P : Dependent → Prop)
    (hf : ∀ d ∈ frontier, P d) (hr : ∀ d e, P d → e ∈ rest → e.readsFrom d = true → P e) :
    ∀ d ∈ spread frontier rest, P d := by
  fun_induction spread frontier rest with
  | case1 => simp
  | case2 x frontier rest ih =>
    have hx : P x := hf x List.mem_cons_self
    have hrest := ih ?_ fun d e hd he => hr d e hd (List.mem_of_mem_filter he)
    · intro d hd
      rcases List.mem_cons.1 hd with rfl | hd
      · exact hx
      · exact hrest d hd
    · intro d hd
      rcases List.mem_append.1 hd with hd | hd
      · obtain ⟨hm, hread⟩ := List.mem_filter.1 hd
        exact hr x d hx hm hread
      · exact hf d (List.mem_cons_of_mem _ hd)

/-! The dependents of an index. -/

variable {i : Index} {features : List Feature} {c : Changes}

lemma mem_all {d : Dependent} : d ∈ Dependent.all i features c ↔
    (∃ p e, i.cell? p = some e ∧ p ∉ c.excluded ∧ d = .ofCell c p e) ∨
    (∃ k e, i.other? k = some e ∧ d = .ofOther c k e) ∨
    ∃ n f, features[n]? = some f ∧ d = .ofFeature c n f := by
  simp only [Dependent.all, List.mem_append, List.mem_map, List.mem_filter, List.mem_mapIdx, Prod.exists,
    ExtTreeMap.mem_toList_iff_getElem?_eq_some, Index.cell?, Index.other?, or_assoc]
  refine or_congr ?_ (or_congr ?_ ?_)
  · constructor
    · rintro ⟨p, e, ⟨hp, hx⟩, rfl⟩
      exact ⟨p, e, hp, by simpa [← ExtTreeSet.contains_iff_mem] using hx, rfl⟩
    · rintro ⟨p, e, hp, hx, rfl⟩
      exact ⟨p, e, ⟨hp, by simpa [← ExtTreeSet.contains_iff_mem] using hx⟩, rfl⟩
  · simp only [eq_comm]
  · constructor
    · rintro ⟨n, hn, rfl⟩
      exact ⟨n, features[n], List.getElem?_eq_getElem hn, rfl⟩
    · rintro ⟨n, f, hf, rfl⟩
      obtain ⟨hn, rfl⟩ := List.getElem?_eq_some_iff.1 hf
      exact ⟨n, hn, rfl⟩

lemma nodup_targets_cells (m : PlaceMap Entry) (keep : Place × Entry → Bool) :
    ((m.toList.filter keep).map fun (p, _) => Target.cell p).Nodup := by
  have hk : (m.toList.map Prod.fst).Nodup := by
    rw [ExtTreeMap.map_fst_toList_eq_keys]
    exact ExtTreeMap.nodup_keys
  have hs : ((m.toList.filter keep).map Prod.fst).Nodup :=
    hk.sublist (List.filter_sublist.map Prod.fst)
  rw [show (fun x : Place × Entry => Target.cell x.1) = Target.cell ∘ Prod.fst from rfl, ← List.map_map]
  exact hs.map fun _ _ h => Target.cell.inj h

lemma nodup_targets_others (m : ItemMap Entry) :
    (m.toList.map fun (k, _) => Target.other k).Nodup := by
  rw [show (fun x : ItemKey × Entry => Target.other x.1) = Target.other ∘ Prod.fst from rfl, ← List.map_map,
    ExtTreeMap.map_fst_toList_eq_keys]
  exact ExtTreeMap.nodup_keys.map fun _ _ h => Target.other.inj h

lemma nodup_targets_features :
    ((features.mapIdx (Dependent.ofFeature c)).map (·.target)).Nodup := by
  rw [List.Nodup, List.pairwise_iff_getElem]
  intro m n hm hn hlt heq
  simp only [List.getElem_map, List.getElem_mapIdx, Dependent.ofFeature, Target.feature.injEq] at heq
  omega

lemma nodup_targets : ((Dependent.all i features c).map (·.target)).Nodup := by
  rw [Dependent.all, List.map_append, List.map_append, List.map_map, List.map_map]
  refine ((nodup_targets_cells i.cells _).append (nodup_targets_others i.others) ?_).append
    nodup_targets_features ?_
  · intro t ht ho
    obtain ⟨_, _, rfl⟩ := List.mem_map.1 ht
    obtain ⟨_, _, h⟩ := List.mem_map.1 ho
    cases h
  · intro t ht hf
    obtain ⟨d, hd, rfl⟩ := List.mem_map.1 hf
    obtain ⟨n, hn, rfl⟩ := List.mem_mapIdx.1 hd
    rcases List.mem_append.1 ht with ht | ht
    · obtain ⟨_, _, h⟩ := List.mem_map.1 ht
      cases h
    · obtain ⟨_, _, h⟩ := List.mem_map.1 ht
      cases h

/-- The dependents behind what is dirty. -/
def affected (i : Index) (features : List Feature) (c : Changes) : List Dependent :=
  spread ((Dependent.all i features c).filter (·.seeded)) ((Dependent.all i features c).filter (!·.seeded))

lemma dirty_eq : dirty i features c = (affected i features c).map (·.target) := by
  rw [dirty, List.partition_eq_filter_filter]
  rfl

lemma affected_subperm : (affected i features c).Subperm (Dependent.all i features c) :=
  (spread_subperm _ _).trans (List.filter_append_perm _ _).subperm

lemma nodup_dirty : (dirty i features c).Nodup := by
  obtain ⟨l, hl, hsub⟩ : (affected i features c).Subperm (Dependent.all i features c) := affected_subperm
  rw [dirty_eq]
  exact (hl.map _).nodup_iff.1 (nodup_targets.sublist (hsub.map _))

lemma mem_affected_of_seeded {d : Dependent} (hd : d ∈ Dependent.all i features c)
    (h : d.seeded = true) : d ∈ affected i features c :=
  mem_spread_of_mem_frontier (List.mem_filter.2 ⟨hd, h⟩)

lemma mem_affected_of_readsFrom {d e : Dependent} (he : e ∈ Dependent.all i features c)
    (hd : d ∈ affected i features c) (h : e.readsFrom d = true) : e ∈ affected i features c := by
  cases hs : e.seeded with
  | true => exact mem_affected_of_seeded he hs
  | false => exact mem_spread_of_readsFrom hd (List.mem_filter.2 ⟨he, by simp [hs]⟩) h

/-! The rules of what is dirty. -/

variable (c) in
/-- What a formula mentions, itself and through names, has changed in other ways than by a range. -/
def Entry.Mentions (book : String) (e : Entry) : Prop :=
  c.force = true ∨ (c.volatile = true ∧ e.volatile = true) ∨
    (∃ n ∈ c.names, n.1 = book ∧ n.2 ∈ e.names) ∨ ∃ n ∈ c.sheetNames, n.2 ∈ e.sheetNames

variable (i features c)

/-- A range that has changed, or that a member of the set writes. -/
def Written (S : Set Target) (w : Region) : Prop :=
  w ∈ c.ranges ∨ (∃ p e, i.cell? p = some e ∧ .cell p ∈ S ∧ w = e.output) ∨
    ∃ n f, features[n]? = some f ∧ .feature n f.key ∈ S ∧ w ∈ f.outputs

def Touched (S : Set Target) (reads : List Region) : Prop :=
  ∃ w, Written i features c S w ∧ ∃ r ∈ reads, r.overlaps w = true

structure Closed (S : Set Target) : Prop where
  cell : ∀ p e, i.cell? p = some e → p ∉ c.excluded →
    e.Mentions c p.book ∨ (∃ r ∈ c.ranges, e.output.overlaps r = true) ∨
      Touched i features c S e.references → .cell p ∈ S
  other : ∀ k e, i.other? k = some e →
    e.Mentions c k.book ∨ k ∈ c.others ∨ Touched i features c S e.references → .other k ∈ S
  feature : ∀ n f, features[n]? = some f →
    f.key ∈ c.features ∨ Touched i features c S f.dependencies → .feature n f.key ∈ S

variable {i features c} {S : Set Target}

/-- Some of the ranges read has changed. -/
def Changed (c : Changes) (reads : List Region) : Prop :=
  ∃ w ∈ c.ranges, ∃ r ∈ reads, r.overlaps w = true

lemma Changed.touched {reads : List Region} (h : Changed c reads) : Touched i features c S reads := by
  obtain ⟨w, hw, hr⟩ := h
  exact ⟨w, Or.inl hw, hr⟩

lemma mentionsChange_iff {book : String} {e : Entry} :
    Dependent.mentionsChange c book e = true ↔ e.Mentions c book ∨ Changed c e.references := by
  simp only [Dependent.mentionsChange, Entry.Mentions, Changed, Bool.or_eq_true, Bool.and_eq_true,
    List.any_eq_true, beq_iff_eq, List.contains_eq_mem, decide_eq_true_eq]
  grind

lemma seeded_ofCell {p : Place} {e : Entry} : (Dependent.ofCell c p e).seeded = true ↔
    (e.Mentions c p.book ∨ Changed c e.references) ∨ ∃ r ∈ c.ranges, e.output.overlaps r = true := by
  simp only [Dependent.ofCell, Bool.or_eq_true, mentionsChange_iff, List.any_eq_true]

lemma seeded_ofOther {k : ItemKey} {e : Entry} : (Dependent.ofOther c k e).seeded = true ↔
    (e.Mentions c k.book ∨ Changed c e.references) ∨ k ∈ c.others := by
  simp only [Dependent.ofOther, Bool.or_eq_true, mentionsChange_iff, ExtTreeSet.contains_iff_mem]

lemma seeded_ofFeature {n : Nat} {f : Feature} : (Dependent.ofFeature c n f).seeded = true ↔
    f.key ∈ c.features ∨ Changed c f.dependencies := by
  simp only [Dependent.ofFeature, Changed, Bool.or_eq_true, ExtTreeSet.contains_iff_mem, List.any_eq_true]

lemma written_of_mem_writes {d : Dependent} (hd : d ∈ Dependent.all i features c) (ht : d.target ∈ S)
    {w : Region} (hw : w ∈ d.writes) : Written i features c S w := by
  rcases mem_all.1 hd with ⟨p, e, hp, _, rfl⟩ | ⟨k, e, _, rfl⟩ | ⟨n, f, hf, rfl⟩
  · exact Or.inr (Or.inl ⟨p, e, hp, ht, List.mem_singleton.1 hw⟩)
  · simp [Dependent.ofOther] at hw
  · exact Or.inr (Or.inr ⟨n, f, hf, ht, hw⟩)

lemma Closed.of_touched (hS : Closed i features c S) {d : Dependent}
    (hd : d ∈ Dependent.all i features c) (h : Touched i features c S d.reads) : d.target ∈ S := by
  rcases mem_all.1 hd with ⟨p, e, hp, hx, rfl⟩ | ⟨k, e, hk, rfl⟩ | ⟨n, f, hf, rfl⟩
  · exact hS.cell p e hp hx (Or.inr (Or.inr h))
  · exact hS.other k e hk (Or.inr (Or.inr h))
  · exact hS.feature n f hf (Or.inr h)

lemma Closed.of_seeded (hS : Closed i features c S) {d : Dependent}
    (hd : d ∈ Dependent.all i features c) (h : d.seeded = true) : d.target ∈ S := by
  rcases mem_all.1 hd with ⟨p, e, hp, hx, rfl⟩ | ⟨k, e, hk, rfl⟩ | ⟨n, f, hf, rfl⟩
  · refine hS.cell p e hp hx ?_
    rcases seeded_ofCell.1 h with (h | h) | h
    · exact Or.inl h
    · exact Or.inr (Or.inr h.touched)
    · exact Or.inr (Or.inl h)
  · refine hS.other k e hk ?_
    rcases seeded_ofOther.1 h with (h | h) | h
    · exact Or.inl h
    · exact Or.inr (Or.inr h.touched)
    · exact Or.inr (Or.inl h)
  · exact hS.feature n f hf ((seeded_ofFeature.1 h).imp id Changed.touched)

lemma readsFrom_of_overlaps {d e : Dependent} {w r : Region} (hw : w ∈ d.writes) (hr : r ∈ e.reads)
    (h : r.overlaps w = true) : e.readsFrom d = true :=
  List.any_eq_true.2 ⟨w, hw, List.any_eq_true.2 ⟨r, hr, h⟩⟩

lemma dirty_subset (hS : Closed i features c S) : {t | t ∈ dirty i features c} ⊆ S := by
  intro t ht
  rw [Set.mem_ofPred_eq, dirty_eq] at ht
  obtain ⟨d, hd, rfl⟩ := List.mem_map.1 ht
  refine (spread_induction (fun d => d ∈ Dependent.all i features c ∧ d.target ∈ S) ?_ ?_ d hd).2
  · intro d hd
    obtain ⟨hm, hs⟩ := List.mem_filter.1 hd
    exact ⟨hm, hS.of_seeded hm hs⟩
  · rintro d e ⟨hd, ht⟩ he hread
    have he := List.mem_of_mem_filter he
    obtain ⟨w, hw, hr⟩ := List.any_eq_true.1 hread
    obtain ⟨r, hr, hov⟩ := List.any_eq_true.1 hr
    exact ⟨he, hS.of_touched he ⟨w, written_of_mem_writes hd ht hw, r, hr, hov⟩⟩

lemma written_dirty {w : Region} (h : Written i features c {t | t ∈ dirty i features c} w) :
    w ∈ c.ranges ∨ ∃ d ∈ affected i features c, w ∈ d.writes := by
  refine h.imp id fun h => ?_
  simp only [Set.mem_ofPred_eq, dirty_eq, List.mem_map] at h
  rcases h with ⟨p, e, hp, ⟨d, hd, ht⟩, rfl⟩ | ⟨n, f, hf, ⟨d, hd, ht⟩, hw⟩
  · refine ⟨d, hd, ?_⟩
    rcases mem_all.1 (affected_subperm.subset hd) with ⟨q, e', hq, _, rfl⟩ | ⟨k, e', _, rfl⟩ | ⟨m, g, _, rfl⟩
    · obtain rfl : q = p := Target.cell.inj ht
      obtain rfl : e = e' := Option.some.inj (hp.symm.trans hq)
      exact List.mem_singleton_self _
    · cases ht
    · cases ht
  · refine ⟨d, hd, ?_⟩
    rcases mem_all.1 (affected_subperm.subset hd) with ⟨q, e', hq, _, rfl⟩ | ⟨k, e', _, rfl⟩ | ⟨m, g, hg, rfl⟩
    · cases ht
    · cases ht
    · obtain ⟨rfl, _⟩ := Target.feature.inj ht
      obtain rfl : f = g := Option.some.inj (hf.symm.trans hg)
      exact hw

lemma mem_affected_of_touched {d : Dependent} (hd : d ∈ Dependent.all i features c)
    (hs : Changed c d.reads → d.seeded = true)
    (h : Touched i features c {t | t ∈ dirty i features c} d.reads) : d ∈ affected i features c := by
  obtain ⟨w, hw, r, hr, hov⟩ := h
  rcases written_dirty hw with hw | ⟨e, he, hw⟩
  · exact mem_affected_of_seeded hd (hs ⟨w, hw, r, hr, hov⟩)
  · exact mem_affected_of_readsFrom hd he (readsFrom_of_overlaps hw hr hov)

lemma target_mem_dirty {d : Dependent} (hd : d ∈ affected i features c) :
    d.target ∈ {t | t ∈ dirty i features c} := by
  rw [Set.mem_ofPred_eq, dirty_eq]
  exact List.mem_map_of_mem hd

lemma closed_dirty : Closed i features c {t | t ∈ dirty i features c} where
  cell p e hp hx h := by
    have hd : .ofCell c p e ∈ Dependent.all i features c := mem_all.2 (Or.inl ⟨p, e, hp, hx, rfl⟩)
    refine target_mem_dirty (d := .ofCell c p e) ?_
    rcases h with h | h | h
    · exact mem_affected_of_seeded hd (seeded_ofCell.2 (Or.inl (Or.inl h)))
    · exact mem_affected_of_seeded hd (seeded_ofCell.2 (Or.inr h))
    · exact mem_affected_of_touched hd (fun hr => seeded_ofCell.2 (Or.inl (Or.inr hr))) h
  other k e hk h := by
    have hd : .ofOther c k e ∈ Dependent.all i features c := mem_all.2 (Or.inr (Or.inl ⟨k, e, hk, rfl⟩))
    refine target_mem_dirty (d := .ofOther c k e) ?_
    rcases h with h | h | h
    · exact mem_affected_of_seeded hd (seeded_ofOther.2 (Or.inl (Or.inl h)))
    · exact mem_affected_of_seeded hd (seeded_ofOther.2 (Or.inr h))
    · exact mem_affected_of_touched hd (fun hr => seeded_ofOther.2 (Or.inl (Or.inr hr))) h
  feature n f hf h := by
    have hd : .ofFeature c n f ∈ Dependent.all i features c := mem_all.2 (Or.inr (Or.inr ⟨n, f, hf, rfl⟩))
    refine target_mem_dirty (d := .ofFeature c n f) ?_
    rcases h with h | h
    · exact mem_affected_of_seeded hd (seeded_ofFeature.2 (Or.inl h))
    · exact mem_affected_of_touched hd (fun hr => seeded_ofFeature.2 (Or.inr hr)) h

lemma isLeast_dirty : IsLeast {S | Closed i features c S} {t | t ∈ dirty i features c} :=
  ⟨closed_dirty, fun _ hS => dirty_subset hS⟩

end Spreadsheet.Dependency
