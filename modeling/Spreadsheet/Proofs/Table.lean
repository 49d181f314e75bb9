import Mathlib.Data.List.Perm.Subperm
import Mathlib.Tactic.Lemma
import Std.Data.ExtTreeMap
import Std.Data.ExtTreeSet

/-! Tables folded together from lists of entries. -/

namespace Spreadsheet.Table

open Std

variable {α β κ σ : Type}

/-- Entries put into a table one after the other, where entries with one key agree. -/
lemma look_foldl (look : σ → κ → Option β) {step : σ → α → σ} (key : α → κ) (val : α → β)
    (hsame : ∀ t a k, key a = k → look (step t a) k = some (val a))
    (hother : ∀ t a k, key a ≠ k → look (step t a) k = look t k) {l : List α}
    (hl : ∀ a ∈ l, ∀ b ∈ l, key a = key b → val a = val b) (t : σ) (k : κ) (v : β) :
    look (l.foldl step t) k = some v ↔
      (∃ a ∈ l, key a = k ∧ val a = v) ∨ (∀ a ∈ l, key a ≠ k) ∧ look t k = some v := by
  -- on the list, from the front: a later entry with the same key has the same value, so the first one shows already
  induction l generalizing t with
  | nil => simp
  | cons a l ih =>
    rw [List.foldl_cons, ih fun x hx y hy => hl x (List.mem_cons_of_mem _ hx) y (List.mem_cons_of_mem _ hy)]
    by_cases hk : key a = k
    · rw [hsame t a k hk]
      constructor
      · rintro (⟨b, hb, hkb, hv⟩ | ⟨-, hv⟩)
        · exact Or.inl ⟨b, List.mem_cons_of_mem _ hb, hkb, hv⟩
        · exact Or.inl ⟨a, List.mem_cons_self, hk, Option.some.inj hv⟩
      · rintro (⟨b, hb, hkb, hv⟩ | ⟨hn, -⟩)
        · by_cases hex : ∃ x ∈ l, key x = k
          · obtain ⟨x, hx, hkx⟩ := hex
            exact Or.inl ⟨x, hx, hkx, by rw [hl x (List.mem_cons_of_mem _ hx) b hb (hkx.trans hkb.symm), hv]⟩
          · refine Or.inr ⟨fun x hx hkx => hex ⟨x, hx, hkx⟩, ?_⟩
            rw [hl a List.mem_cons_self b hb (hk.trans hkb.symm), hv]
        · exact absurd hk (hn a List.mem_cons_self)
    · rw [hother t a k hk]
      simp [hk]

variable [Ord κ] [TransOrd κ] [LawfulEqOrd κ]

lemma getElem?_foldl_insert (key : α → κ) {val : α → β} {l : List α}
    (hl : ∀ a ∈ l, ∀ b ∈ l, key a = key b → val a = val b) (m : ExtTreeMap κ β) (k : κ) (v : β) :
    (l.foldl (fun m a => m.insert (key a) (val a)) m)[k]? = some v ↔
      (∃ a ∈ l, key a = k ∧ val a = v) ∨ (∀ a ∈ l, key a ≠ k) ∧ m[k]? = some v := by
  refine look_foldl (fun (m : ExtTreeMap κ β) k => m[k]?) key val ?_ ?_ hl m k v
  · rintro m a _ rfl
    exact ExtTreeMap.getElem?_insert_self
  · intro m a k hk
    simp [ExtTreeMap.getElem?_insert, hk]

lemma mem_of_foldl_insert (key : α → κ) {val : α → β} {l : List α}
    (hl : ∀ a ∈ l, ∀ b ∈ l, key a = key b → val a = val b) (k : κ) (v : β) :
    (l.foldl (fun m a => m.insert (key a) (val a)) (∅ : ExtTreeMap κ β))[k]? = some v ↔
      ∃ a ∈ l, key a = k ∧ val a = v := by
  rw [getElem?_foldl_insert key hl]
  simp

lemma getElem?_foldl_erase [DecidableEq κ] (l : List κ) (m : ExtTreeMap κ β) (k : κ) :
    (l.foldl (fun m k => m.erase k) m)[k]? = if k ∈ l then none else m[k]? := by
  induction l generalizing m with
  | nil => simp
  | cons a l ih =>
    rw [List.foldl_cons, ih]
    simp only [ExtTreeMap.getElem?_erase, Std.compare_eq_iff_eq, List.mem_cons]
    grind

lemma getElem?_foldl_insert_last [DecidableEq κ] (l : List (κ × β)) (m : ExtTreeMap κ β) (k : κ) :
    (l.foldl (fun m a => m.insert a.1 a.2) m)[k]? = ((l.reverse.find? (·.1 == k)).map (·.2)).or m[k]? := by
  induction l generalizing m with
  | nil => rfl
  | cons a l ih =>
    rw [List.foldl_cons, ih, List.reverse_cons, List.find?_append, ExtTreeMap.getElem?_insert]
    cases l.reverse.find? (·.1 == k) with
    | some b => rfl
    | none =>
      by_cases hk : a.1 = k
      · simp [hk]
      · simp [hk, Option.or]

lemma getElem?_foldl_over (m' m : ExtTreeMap κ β) (k : κ) :
    (m'.foldl (fun m k v => m.insert k v) m)[k]? = m'[k]?.or m[k]? := by
  have hsame : ∀ a ∈ m'.toList, ∀ b ∈ m'.toList, a.1 = b.1 → a.2 = b.2 := by
    intro a ha b hb hab
    have ha := ExtTreeMap.mem_toList_iff_getElem?_eq_some.1 ha
    have hb := ExtTreeMap.mem_toList_iff_getElem?_eq_some.1 hb
    rw [hab, hb] at ha
    exact (Option.some.inj ha).symm
  refine Option.ext fun v => ?_
  rw [ExtTreeMap.foldl_eq_foldl_toList, Option.or_eq_some_iff]
  refine (getElem?_foldl_insert (fun a : κ × β => a.1) hsame m k v).trans (or_congr ?_ (and_congr_left' ?_))
  · rw [← ExtTreeMap.mem_toList_iff_getElem?_eq_some]
    constructor
    · rintro ⟨⟨_, _⟩, ha, rfl, rfl⟩
      exact ha
    · exact fun h => ⟨_, h, rfl, rfl⟩
  · rw [Option.eq_none_iff_forall_ne_some]
    constructor
    · rintro h w hw
      exact h (k, w) (ExtTreeMap.mem_toList_iff_getElem?_eq_some.2 hw) rfl
    · rintro h ⟨_, w⟩ ha rfl
      exact h w (ExtTreeMap.mem_toList_iff_getElem?_eq_some.1 ha)

lemma insert_comm (m : ExtTreeMap κ β) {a b : κ × β} (h : a.1 ≠ b.1) :
    (m.insert a.1 a.2).insert b.1 b.2 = (m.insert b.1 b.2).insert a.1 a.2 := by
  refine ExtTreeMap.ext_getElem? fun k => ?_
  simp only [ExtTreeMap.getElem?_insert, Std.compare_eq_iff_eq]
  grind

lemma mem_foldl_insert (l : List κ) (t : ExtTreeSet κ) (k : κ) :
    k ∈ l.foldl (fun t k => t.insert k) t ↔ k ∈ l ∨ k ∈ t := by
  induction l generalizing t with
  | nil => simp
  | cons a l ih =>
    rw [List.foldl_cons, ih, List.mem_cons, ExtTreeSet.mem_insert, Std.compare_eq_iff_eq]
    grind

lemma nodup_toList (t : ExtTreeSet κ) : t.toList.Nodup :=
  ExtTreeSet.distinct_toList.imp fun hab heq => hab (Std.compare_eq_iff_eq.2 heq)

lemma size_le_length {t : ExtTreeSet κ} {l : List κ} (h : ∀ k ∈ t, k ∈ l) : t.size ≤ l.length := by
  rw [← ExtTreeSet.length_toList]
  exact (List.subperm_of_subset (nodup_toList t) fun k hk => h k (ExtTreeSet.mem_toList.1 hk)).length_le

omit [LawfulEqOrd κ] in
lemma contains_eq_false {t : ExtTreeSet κ} {k : κ} (h : k ∉ t) : t.contains k = false := by
  rwa [← Bool.not_eq_true, ExtTreeSet.contains_iff_mem]

lemma foldl_insert_self (m : ExtTreeMap κ β) : m.foldl (fun m k v => m.insert k v) ∅ = m := by
  refine ExtTreeMap.ext_getElem? fun k => ?_
  rw [getElem?_foldl_over, ExtTreeMap.getElem?_empty, Option.or_none]

omit [LawfulEqOrd κ] in
lemma values_eq (m : ExtTreeMap κ β) : m.values = m.toList.map (·.2) := by
  have h : m.values = m.foldr (fun _ v l => v :: l) [] := by
    obtain ⟨⟨q⟩⟩ := m
    induction q using Quotient.ind
    rfl
  rw [h, ExtTreeMap.foldr_eq_foldr_toList]
  induction m.toList with
  | nil => rfl
  | cons x l ih => rw [List.foldr_cons, ih, List.map_cons]

lemma mem_values {m : ExtTreeMap κ β} {v : β} : v ∈ m.values ↔ ∃ k : κ, m[k]? = some v := by
  rw [values_eq, List.mem_map]
  constructor
  · rintro ⟨⟨k, v⟩, h, rfl⟩
    exact ⟨k, ExtTreeMap.mem_toList_iff_getElem?_eq_some.1 h⟩
  · rintro ⟨k, h⟩
    exact ⟨(k, v), ExtTreeMap.mem_toList_iff_getElem?_eq_some.2 h, rfl⟩

lemma find?_toList [DecidableEq κ] (m : ExtTreeMap κ β) (k : κ) :
    (m.toList.find? (·.1 == k)).map (·.2) = m[k]? := by
  cases hf : m.toList.find? (·.1 == k) with
  | some x =>
    have hx : x.1 = k := by simpa using List.find?_some hf
    have hm := ExtTreeMap.mem_toList_iff_getElem?_eq_some.1 (List.mem_of_find?_eq_some hf)
    rw [← hx, hm]
    rfl
  | none =>
    rw [List.find?_eq_none] at hf
    cases hm : m[k]? with
    | none => rfl
    | some v => exact absurd (beq_self_eq_true k) (hf (k, v) (ExtTreeMap.mem_toList_iff_getElem?_eq_some.2 hm))

end Spreadsheet.Table
