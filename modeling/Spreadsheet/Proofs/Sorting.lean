import Spreadsheet.Sorting
import Mathlib.Data.List.Forall2
import Mathlib.Data.Prod.Lex
import Mathlib.Data.String.Basic
import Mathlib.Order.Compare
import Mathlib.Tactic.Lemma

/-! Every value has a standing, and values compare as their standings do. So the order of values is total whatever arrays
hold, and a sorted list is settled up to values that stand level. -/

namespace Spreadsheet

open Text

namespace Value

/-- What tells numbers, truth values and errors apart from others of their rank. -/
def amount : Value → ℤ
  | number x => Number.orderKey x
  | boolean b => b.toNat
  | error e => e.code
  | _ => 0

/-- What tells texts apart. -/
def letters : Value → String
  | text s => lower s
  | _ => ""

end Value

/-- Hollow arrays stand before all items, the shallow ones first. -/
def Corner.standing : Corner → ℕ ×ₗ ℤ ×ₗ String
  | hollow depth => toLex (0, toLex (depth, ""))
  | item v => toLex (v.rank + 1, toLex (v.amount, v.letters))

namespace Value

variable {u v w : Value} {vs : List Value}

def standing (v : Value) : ℕ ×ₗ ℤ ×ₗ String := v.corner.standing

lemma compare_standings (k l : ℕ) (m n : ℤ) (s t : String) :
    compare (toLex (k, toLex (m, s))) (toLex (l, toLex (n, t))) = (compare k l).then ((compare m n).then (compare s t)) := by
  simp only [Prod.Lex.compare_def, compareLex, compareOn, ofLex_toLex]

lemma compare_natCast (m n : ℕ) : compare (m : ℤ) n = compare m n := by
  rcases lt_trichotomy m n with h | rfl | h
  · rw [compare_lt_iff_lt.mpr h, compare_lt_iff_lt.mpr (Int.ofNat_lt.mpr h)]
  · rw [Std.compare_self, Std.compare_self]
  · rw [compare_gt_iff_gt.mpr h, compare_gt_iff_gt.mpr (Int.ofNat_lt.mpr h)]

lemma compareItems_eq (v w : Value) : compareItems v w = compare (Corner.item v).standing (Corner.item w).standing := by
  simp only [Corner.standing, compare_standings]
  -- of different ranks the ranks decide, of one rank what the values hold
  cases v <;> cases w <;>
    first | rfl | simp [compareItems, rank, amount, letters, compare_natCast]

lemma sortOrder_eq_compare (v w : Value) : sortOrder v w = compare v.standing w.standing := by
  rw [sortOrder, standing, standing]
  cases v.corner with
  | hollow m =>
    cases w.corner with
    | hollow n => simp [Corner.standing, compare_standings, compare_natCast]
    | item w => rw [Corner.standing, Corner.standing, compare_standings, compare_lt_iff_lt.mpr (Nat.succ_pos _)]; rfl
  | item v =>
    cases w.corner with
    | hollow n => rw [Corner.standing, Corner.standing, compare_standings, compare_gt_iff_gt.mpr (Nat.succ_pos _)]; rfl
    | item w => exact compareItems_eq v w

lemma sortOrder_ne_gt : sortOrder v w ≠ .gt ↔ v.standing ≤ w.standing := by
  rw [sortOrder_eq_compare, compare_le_iff_le]

lemma sortOrder_eq_eq : sortOrder v w = .eq ↔ v.standing = w.standing := by
  rw [sortOrder_eq_compare, compare_eq_iff_eq]

lemma corner_of_first? {g : Grid Value} (h : g.first? = some v) : (array g).corner = v.corner.deeper := by
  obtain ⟨rows, cols, _ | ⟨w, ws⟩⟩ := g
  · cases h
  · cases h; rfl

lemma corner_of_first?_none {g : Grid Value} (h : g.first? = none) : (array g).corner = .hollow 0 := by
  obtain ⟨rows, cols, _ | ⟨w, ws⟩⟩ := g
  · rfl
  · cases h

lemma corner_of_ne_array (h : ∀ g, v ≠ array g) : v.corner = .item v := by
  cases v with
  | array g => exact absurd rfl (h g)
  | _ => rfl

lemma sortOrder_swap (v w : Value) : (sortOrder v w).swap = sortOrder w v := by
  rw [sortOrder_eq_compare, sortOrder_eq_compare, ← Std.OrientedCmp.eq_swap]

theorem sortOrder_arrays (g h : Grid Value) : sortOrder (array g) (array h) =
    match g.first?, h.first? with
    | some v, some w => sortOrder v w
    | v, w => compare v.isSome w.isSome := by
  cases hg : g.first? with
  | none =>
    cases hh : h.first? with
    | none => rw [sortOrder, corner_of_first?_none hg, corner_of_first?_none hh]; rfl
    | some w =>
      rw [sortOrder, corner_of_first?_none hg, corner_of_first? hh]
      cases w.corner with
      | hollow n => exact Nat.compare_eq_lt.mpr n.succ_pos
      | item w => rfl
  | some v =>
    cases hh : h.first? with
    | none =>
      rw [sortOrder, corner_of_first? hg, corner_of_first?_none hh]
      cases v.corner with
      | hollow m => exact Nat.compare_eq_gt.mpr m.succ_pos
      | item v => rfl
    | some w =>
      simp only [sortOrder, corner_of_first? hg, corner_of_first? hh]
      cases v.corner <;> cases w.corner <;> first | rfl | simp [Corner.deeper, Nat.compare_eq_ite_lt]

theorem sortOrder_array_left (g : Grid Value) (hw : ∀ h, w ≠ array h) :
    sortOrder (array g) w = (g.first?.map (sortOrder · w)).getD .lt := by
  cases hg : g.first? with
  | none => simp [sortOrder, corner_of_first?_none hg, corner_of_ne_array hw]
  | some v =>
    simp only [sortOrder, corner_of_first? hg, corner_of_ne_array hw, Option.map_some, Option.getD_some]
    cases v.corner <;> rfl

theorem sortOrder_array_right (hv : ∀ g, v ≠ array g) (h : Grid Value) :
    sortOrder v (array h) = (h.first?.map (sortOrder v)).getD .gt := by
  rw [← sortOrder_swap, sortOrder_array_left h hv]
  cases h.first? with
  | none => rfl
  | some w => exact sortOrder_swap w v

lemma bne_gt_trans (u v w : Value) (huv : (sortOrder u v != .gt) = true) (hvw : (sortOrder v w != .gt) = true) :
    (sortOrder u w != .gt) = true := by
  rw [bne_iff_ne, sortOrder_ne_gt] at huv hvw ⊢
  exact huv.trans hvw

lemma bne_gt_total (v w : Value) : (sortOrder v w != .gt || sortOrder w v != .gt) = true := by
  rw [Bool.or_eq_true, bne_iff_ne, bne_iff_ne, sortOrder_ne_gt, sortOrder_ne_gt]
  exact le_total _ _

lemma sort_perm (vs : List Value) : (sort vs).Perm vs := List.mergeSort_perm vs _

lemma pairwise_sort (vs : List Value) : (sort vs).Pairwise fun v w => sortOrder v w ≠ .gt :=
  (List.pairwise_mergeSort bne_gt_trans bne_gt_total vs).imp bne_iff_ne.mp

theorem filter_sort (u : Value) (vs : List Value) :
    (sort vs).filter (sortOrder u · == .eq) = vs.filter (sortOrder u · == .eq) := by
  have hlevel : (vs.filter (sortOrder u · == .eq)).Pairwise fun v w => (sortOrder v w != .gt) = true := by
    rw [List.pairwise_filter]
    refine List.pairwise_iff_forall_sublist.mpr fun _ hv hw => ?_
    rw [bne_iff_ne, sortOrder_ne_gt, ← sortOrder_eq_eq.mp (eq_of_beq hv), ← sortOrder_eq_eq.mp (eq_of_beq hw)]
  have hkept := (List.sublist_mergeSort bne_gt_trans bne_gt_total hlevel List.filter_sublist).filter (sortOrder u · == .eq)
  rw [List.filter_filter] at hkept
  simp only [Bool.and_self] at hkept
  exact (hkept.eq_of_length ((sort_perm vs).filter _).length_eq.symm).symm

lemma forall₂_sort {us : List Value} (hperm : us.Perm vs) (hsorted : us.Pairwise fun v w => sortOrder v w ≠ .gt) :
    List.Forall₂ (fun u v => sortOrder u v = .eq) us (sort vs) := by
  have hstanding : us.map standing = (sort vs).map standing := by
    have hantisymm : ∀ a b, a ∈ us.map standing → b ∈ (sort vs).map standing → a ≤ b → b ≤ a → a = b :=
      fun _ _ _ _ => le_antisymm
    apply List.Perm.eq_of_pairwise hantisymm
    · exact List.pairwise_map.mpr (hsorted.imp sortOrder_ne_gt.mp)
    · exact List.pairwise_map.mpr ((pairwise_sort vs).imp sortOrder_ne_gt.mp)
    · exact (hperm.trans (sort_perm vs).symm).map standing
  rw [← List.forall₂_eq_eq_eq, List.forall₂_map_left_iff, List.forall₂_map_right_iff] at hstanding
  exact hstanding.imp fun _ _ => sortOrder_eq_eq.mpr

/-- The order of values is a total preorder, so sorting gives a list in order that is settled up to values that stand level. -/
theorem sortOrder_preorder :
    (∀ v, sortOrder v v = .eq) ∧ (∀ v w, sortOrder w v = (sortOrder v w).swap) ∧
      (∀ u v w, sortOrder u v ≠ .gt → sortOrder v w ≠ .gt → sortOrder u w ≠ .gt) ∧
      ∀ vs, (sort vs).Perm vs ∧ (sort vs).Pairwise (fun v w => sortOrder v w ≠ .gt) ∧
        ∀ us : List Value, us.Perm vs → us.Pairwise (fun v w => sortOrder v w ≠ .gt) →
          List.Forall₂ (fun u v => sortOrder u v = .eq) us (sort vs) := by
  refine ⟨fun v => sortOrder_eq_eq.mpr rfl, fun v w => ?_, fun u v w huv hvw => ?_, fun vs => ?_⟩
  · rw [sortOrder_swap]
  · rw [sortOrder_ne_gt] at huv hvw ⊢
    exact huv.trans hvw
  · exact ⟨sort_perm vs, pairwise_sort vs, fun us => forall₂_sort⟩

theorem sortOrder_preorder_hollow :
    sortOrder (array ⟨1, 1, [array ⟨0, 0, []⟩]⟩) blank ≠ .gt ∧ sortOrder blank (boolean true) ≠ .gt ∧
      sortOrder (array ⟨1, 1, [array ⟨0, 0, []⟩]⟩) (boolean true) ≠ .gt := by
  have hblank : sortOrder (array ⟨1, 1, [array ⟨0, 0, []⟩]⟩) blank ≠ .gt := by decide
  have htrue : sortOrder blank (boolean true) ≠ .gt := by decide
  exact ⟨hblank, htrue, sortOrder_preorder.2.2.1 _ _ _ hblank htrue⟩

end Value

end Spreadsheet
