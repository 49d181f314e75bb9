import Mathlib.Data.List.Forall2
import Mathlib.Data.List.Nodup
import Spreadsheet.Proofs.Table

/-! Tables that are written in another order. What goes through a table entry by entry comes to the same in any order, as long
as entries with different keys do not get in each other's way. -/

namespace Spreadsheet

open Std

/-- The same entries, one for each key, in any order, where the contents of the entries go together. -/
structure Reordered {κ α : Type} (R : α → α → Prop) (l l' : List (κ × α)) : Prop where
  nodup : (l.map (·.1)).Nodup
  entries : ∃ m, l.Perm m ∧ List.Forall₂ (fun x y => x.1 = y.1 ∧ R x.2 y.2) m l'

namespace Reordered

variable {κ ι α β γ σ : Type} {R : α → α → Prop} {S : β → β → Prop} {l l' : List (κ × α)}

lemma exists_of_mem (h : Reordered R l l') {x : κ × α} (hx : x ∈ l) : ∃ a, R x.2 a := by
  obtain ⟨m, hperm, hentries⟩ := h.entries
  have hx := hperm.mem_iff.1 hx
  clear hperm h
  induction hentries with
  | nil => cases hx
  | cons hxy _ ih =>
    rcases List.mem_cons.1 hx with rfl | hx
    · exact ⟨_, hxy.2⟩
    · exact ih hx

lemma eq_of_key_eq (h : Reordered R l l') {x y : κ × α} (hx : x ∈ l) (hy : y ∈ l) (hxy : x.1 = y.1) : x = y :=
  List.inj_on_of_nodup_map h.nodup hx hy hxy

/-- Walks through the entries stay together if a step keeps them together, with contents that go together, and if two steps at
different keys can be exchanged. -/
lemma foldl_rel (h : Reordered R l l') {E : σ → σ → Prop} {f : σ → κ × α → σ}
    (hstep : ∀ s t x a, x ∈ l → E s t → R x.2 a → E (f s x) (f t (x.1, a)))
    (hcomm : ∀ s x y, x.1 ≠ y.1 → f (f s x) y = f (f s y) x) {s t : σ} (hst : E s t) : E (l.foldl f s) (l'.foldl f t) := by
  obtain ⟨m, hperm, hentries⟩ := h.entries
  -- first the entries are brought into the same order, then the two walks go side by side
  have hfirst : l.foldl f s = m.foldl f s := by
    refine hperm.foldl_eq' (fun x hx y hy z => ?_) s
    by_cases hxy : x.1 = y.1
    · rw [h.eq_of_key_eq hx hy hxy]
    · exact hcomm z x y hxy
  have hstep : ∀ s t x a, x ∈ m → E s t → R x.2 a → E (f s x) (f t (x.1, a)) :=
    fun s t x a hx => hstep s t x a (hperm.mem_iff.2 hx)
  rw [hfirst]
  clear hfirst hperm h
  induction hentries generalizing s t with
  | nil => exact hst
  | @cons x y m l' hxy _ ih =>
    obtain ⟨k, a⟩ := x
    obtain ⟨k', b⟩ := y
    obtain ⟨rfl, hab⟩ := hxy
    exact ih (hstep s t (k, a) b List.mem_cons_self hst hab) fun s t x a hx => hstep s t x a (List.mem_cons_of_mem _ hx)

lemma foldl_eq (h : Reordered R l l') {f : σ → κ × α → σ} (hsame : ∀ s k a b, R a b → f s (k, a) = f s (k, b))
    (hcomm : ∀ s x y, x.1 ≠ y.1 → f (f s x) y = f (f s y) x) (s : σ) : l.foldl f s = l'.foldl f s := by
  refine h.foldl_rel (E := (· = ·)) (fun s t x a _ hst hab => ?_) hcomm rfl
  rw [hst, ← hsame t x.1 x.2 a hab]

lemma perm_flatMap (h : Reordered R l l') {g : κ × α → List γ} (hg : ∀ k a b, R a b → (g (k, a)).Perm (g (k, b))) :
    (l.flatMap g).Perm (l'.flatMap g) := by
  obtain ⟨m, hperm, hentries⟩ := h.entries
  refine (hperm.flatMap_right g).trans ?_
  clear hperm h
  induction hentries with
  | nil => exact .refl _
  | @cons x y m l' hxy _ ih =>
    obtain ⟨k, a⟩ := x
    obtain ⟨k', b⟩ := y
    obtain ⟨rfl, hab⟩ := hxy
    rw [List.flatMap_cons, List.flatMap_cons]
    exact (hg k a b hab).append ih

lemma perm_map (h : Reordered R l l') {g : κ × α → γ} (hg : ∀ k a b, R a b → g (k, a) = g (k, b)) :
    (l.map g).Perm (l'.map g) := by
  rw [List.map_eq_flatMap, List.map_eq_flatMap]
  exact h.perm_flatMap fun k a b hab => by rw [hg k a b hab]

lemma perm_keys (h : Reordered R l l') : (l.map (·.1)).Perm (l'.map (·.1)) := h.perm_map fun _ _ _ _ => rfl

lemma perm (h : Reordered (· = ·) l l') : l.Perm l' := by
  have hmap := h.perm_map (g := id) fun _ _ _ hab => by rw [hab]
  rwa [List.map_id, List.map_id] at hmap

lemma flatMap (h : Reordered R l l') {g : κ × α → List (ι × β)} (part : ι → κ) (hpart : ∀ x, ∀ y ∈ g x, part y.1 = x.1)
    (hg : ∀ k a b, R a b → Reordered S (g (k, a)) (g (k, b))) : Reordered S (l.flatMap g) (l'.flatMap g) where
  nodup := by
    rw [List.map_flatMap, List.nodup_flatMap]
    refine ⟨fun x hx => ?_, ?_⟩
    · obtain ⟨a, ha⟩ := h.exists_of_mem hx
      exact (hg x.1 x.2 a ha).nodup
    · refine (List.pairwise_map.1 h.nodup).imp fun {x y} hxy => ?_
      refine List.disjoint_left.2 fun i hi hi' => ?_
      obtain ⟨z, hz, rfl⟩ := List.mem_map.1 hi
      obtain ⟨z', hz', heq⟩ := List.mem_map.1 hi'
      exact hxy ((hpart x z hz).symm.trans ((congrArg part heq.symm).trans (hpart y z' hz')))
  entries := by
    obtain ⟨m, hperm, hentries⟩ := h.entries
    suffices hflat : ∃ m', (m.flatMap g).Perm m' ∧ List.Forall₂ (fun x y => x.1 = y.1 ∧ S x.2 y.2) m' (l'.flatMap g) by
      obtain ⟨m', hperm', hm'⟩ := hflat
      exact ⟨m', (hperm.flatMap_right g).trans hperm', hm'⟩
    clear hperm h
    induction hentries with
    | nil => exact ⟨[], .refl _, .nil⟩
    | @cons x y m l' hxy _ ih =>
      obtain ⟨k, a⟩ := x
      obtain ⟨k', b⟩ := y
      obtain ⟨rfl, hab⟩ := hxy
      obtain ⟨head, hhead, hentries⟩ := (hg k a b hab).entries
      obtain ⟨tail, htail, hrest⟩ := ih
      refine ⟨head ++ tail, ?_, ?_⟩
      · rw [List.flatMap_cons]
        exact hhead.append htail
      · rw [List.flatMap_cons]
        exact List.rel_append hentries hrest

lemma map_key (h : Reordered R l l') {f : κ → ι} (hf : f.Injective) :
    Reordered R (l.map fun x => (f x.1, x.2)) (l'.map fun x => (f x.1, x.2)) where
  nodup := by
    rw [List.map_map, show (fun y : ι × α => y.1) ∘ (fun x : κ × α => (f x.1, x.2)) = f ∘ fun x => x.1 from rfl, ← List.map_map]
    exact h.nodup.map hf
  entries := by
    obtain ⟨m, hperm, hentries⟩ := h.entries
    refine ⟨m.map fun x => (f x.1, x.2), hperm.map _, ?_⟩
    rw [List.forall₂_map_left_iff, List.forall₂_map_right_iff]
    exact hentries.imp fun x y hxy => ⟨congrArg f hxy.1, hxy.2⟩

section Insert

variable [Ord κ] [TransOrd κ] [LawfulEqOrd κ]

lemma foldl_insert (h : Reordered (· = ·) l l') (m : ExtTreeMap κ α) :
    l.foldl (fun m x => m.insert x.1 x.2) m = l'.foldl (fun m x => m.insert x.1 x.2) m :=
  h.foldl_eq (fun _ _ _ _ hab => by rw [hab]) (fun m _ _ => Table.insert_comm m) m

lemma foldl_mark {l l' : List (κ × Bool)} (h : Reordered (· = ·) l l') (t : ExtTreeSet κ) :
    l.foldl (fun set x => if x.2 then set.insert x.1 else set) t =
      l'.foldl (fun set x => if x.2 then set.insert x.1 else set) t := by
  refine h.foldl_eq (fun _ _ _ _ hab => by rw [hab]) (fun t x y _ => ?_) t
  refine ExtTreeSet.ext_mem fun k => ?_
  grind

end Insert

end Reordered

lemma mergeSort_eq_of_perm {α : Type} (cmp : α → α → Ordering) [TransCmp cmp] [LawfulEqCmp cmp] {l l' : List α}
    (h : l.Perm l') :
    l.mergeSort (fun a b => (cmp a b).isLE) = l'.mergeSort fun a b => (cmp a b).isLE := by
  have hsorted : ∀ l : List α, (l.mergeSort fun a b => (cmp a b).isLE).Pairwise fun a b => (cmp a b).isLE = true :=
    List.pairwise_mergeSort (fun a b c => TransCmp.isLE_trans) fun a b => by
      rw [show cmp b a = (cmp a b).swap from OrientedCmp.eq_swap]
      cases cmp a b <;> rfl
  refine List.Perm.eq_of_pairwise (fun a b _ _ hab hba => ?_) (hsorted l) (hsorted l') ?_
  · exact LawfulEqCmp.eq_of_compare (OrientedCmp.isLE_antisymm hab hba)
  · exact ((List.mergeSort_perm l _).trans h).trans (List.mergeSort_perm l' _).symm

end Spreadsheet
