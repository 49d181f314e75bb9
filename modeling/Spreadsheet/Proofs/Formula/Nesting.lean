import Spreadsheet.Proofs.Formula.Parallel

/-! What the parser reads without a problem it reads in the same way if expressions may nest deeper. -/

namespace Spreadsheet.Formula

namespace Parse

open Node

variable {b : Binder} {inner deeper : ExprParser} {nodes : List TokenTree} {span : Span}

/-- The second parser reads as the first one does whatever the first one reads without a problem. -/
def Extends (inner deeper : ExprParser) : Prop := ∀ precedence stop nodes,
  (inner precedence stop nodes).1.Clean → deeper precedence stop nodes = inner precedence stop nodes

section Deeper

variable (h : Extends inner deeper)

include h

lemma Extends.parallel : Parallel inner deeper Eq Eq Eq := by
  apply Parallel.ofEq
  · intro l _ hl
    rw [hl]
  · intro isSeparator _ l _ s hl
    rw [hl]
    exact List.forall₂_same.2 fun _ _ => ⟨rfl, rfl⟩
  · intro l _ s hl hc
    rw [← hl]
    refine sequence_parallel Eq Eq Eq.symm (fun hn => ?_) hc
    rw [h _ _ _ hn]
    exact ⟨rfl, rfl⟩

lemma Extends.operand_eq {stop : Nat} (hc : (operand b inner stop nodes).1.Clean) :
    operand b deeper stop nodes = operand b inner stop nodes := by
  unfold operand at hc ⊢
  split at hc
  · rfl
  · simp only [h.parallel.group rfl rfl hc]
  · rfl
  · split at hc
    · simp only [h _ _ _ (clean_unary.1 hc)]
    · exact h _ _ _ hc
    all_goals try rfl
    split at hc
    · simp only [h.parallel.call rfl rfl rfl hc]
    · rfl

end Deeper

lemma Extends.climb_eq (h : Extends inner deeper) {precedence stop fuel : Nat} {left : Node}
    (hc : (climb inner precedence stop fuel left nodes).1.Clean) :
    climb deeper precedence stop fuel left nodes = climb inner precedence stop fuel left nodes := by
  fun_induction climb inner precedence stop fuel left nodes with
  | case1 => rw [climb]
  | case2 _ _ _ _ _ ho hp => simp only [climb, ho, if_pos hp]
  | case3 _ _ _ _ _ ho hp ih => simp only [climb, ho, if_neg hp, ih hc]
  | case4 _ _ _ _ _ _ ho hp => simp only [climb, ho, if_pos hp]
  | case5 _ _ _ _ _ _ ho hp _ _ hx ih =>
    have hright := (clean_binary.1 (clean_of_climb hc)).2
    have hd := h _ _ _ (by rw [hx]; exact hright)
    simp only [climb, ho, if_neg hp, hd, hx, ih hc]
  | case6 _ _ _ hzero htoken => rw [climb.eq_3 _ _ _ _ _ _ hzero htoken]

/-- A level more for nesting changes nothing that is read without a problem. -/
lemma extends_expression (nesting : Nat) : Extends (expression b nesting) (expression b (nesting + 1)) := by
  induction nesting with
  | zero => exact fun _ _ _ hc => absurd hc not_clean_invalid
  | succ nesting ih =>
    intro precedence stop nodes hc
    have hleft : (operand b (expression b nesting) stop nodes).1.Clean := clean_of_climb hc
    rw [expression, expression]
    simp only [ih.operand_eq hleft]
    exact ih.climb_eq hc

lemma Extends.trans {middle : ExprParser} (h : Extends inner middle) (h' : Extends middle deeper) :
    Extends inner deeper := by
  intro precedence stop nodes hc
  have hm := h _ _ _ hc
  rw [h' _ _ _ (by rwa [hm]), hm]

lemma extends_of_le {m n : Nat} (h : m ≤ n) : Extends (expression b m) (expression b n) := by
  induction h with
  | refl => exact fun _ _ _ _ => rfl
  | step _ ih => exact ih.trans (extends_expression _)

lemma eq_of_clean_check {n : Node} {whole : Span} (hc : (check whole n).Clean) : n.Clean ∧ n.depth ≤ maxTreeDepth := by
  rw [check] at hc
  split at hc
  · exact absurd hc not_clean_invalid
  · rename_i hdepth
    refine ⟨?_, Nat.le_of_not_lt hdepth⟩
    split at hc
    · split at hc
      · exact hc
      · exact absurd hc not_clean_invalid
    · exact hc

lemma check_of_sound {n : Node} (h : n.Sound) (hdepth : n.depth ≤ maxTreeDepth) (whole : Span) : check whole n = n := by
  rw [check, if_neg (Nat.not_lt_of_le hdepth)]
  split
  · rename_i s p hfirst
    rw [if_pos (h s p (List.mem_of_find?_eq_some hfirst))]
  · rfl

lemma check_of_clean {n : Node} (hc : n.Clean) (hdepth : n.depth ≤ maxTreeDepth) (whole : Span) : check whole n = n :=
  check_of_sound hc.sound hdepth whole

end Parse

end Spreadsheet.Formula
