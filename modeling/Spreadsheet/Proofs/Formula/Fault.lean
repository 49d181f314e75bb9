import Spreadsheet.Proofs.Formula.Spacing

/-! What becomes of syntax errors. The problem that comes first in the text decides, so that a syntax error may stay behind a
reference that could not be bound, and nowhere else. -/

namespace Spreadsheet.Formula

namespace TokenTree

lemma allWellFormed_iff {l : List TokenTree} : allWellFormed l = true ↔ ∀ n ∈ l, n.wellFormed = true := by
  induction l with
  | nil => simp [allWellFormed]
  | cons n l ih => rw [allWellFormed, Bool.and_eq_true, ih, List.forall_mem_cons]

lemma Spaced.wellFormed {n : TokenTree} (h : n.Spaced) : n.wellFormed = true := by
  induction h with
  | token => rfl
  | group _ _ _ ih => rw [TokenTree.wellFormed, Bool.true_and, allWellFormed_iff.2 ih]

end TokenTree

namespace Node

variable {n : Node}

/-- The tree has a problem of a kind, and none before it in the order of the text. -/
def Begins (kind : Problem → Prop) (n : Node) : Prop := ∃ s p, n.firstInvalid? = some (.invalid s p) ∧ kind p

lemma clean_or_begins (n : Node) : n.Clean ∨ n.Begins (·.error ≠ .ref) ∨ n.Begins (·.error = .ref) := by
  cases h : n.firstInvalid? with
  | none => exact .inl h
  | some m =>
    have hm := List.find?_some h
    cases m with
    | invalid s p =>
      by_cases hp : p.error = .ref
      · exact .inr (.inr ⟨s, p, h, hp⟩)
      · exact .inr (.inl ⟨s, p, h, hp⟩)
    | _ => cases hm

lemma Begins.not_only {kind fine : Problem → Prop} (h : n.Begins kind) (hkind : ∀ p, kind p → ¬ fine p) : ¬ n.Only fine := by
  obtain ⟨s, p, hfirst, hp⟩ := h
  exact fun honly => hkind p hp (honly s p (List.mem_of_find?_eq_some hfirst))

/-- The tree is nothing but a syntax error. -/
def IsError (n : Node) : Prop := ∃ s p, n = .invalid s p ∧ p.error ≠ .ref

end Node

namespace Parse

open Node TokenTree

variable {b : Binder} {nodes : List TokenTree} {n : Node} {whole : Span}

/-- A tree gives way to an error if it is too deep or if a syntax error comes first, and stays as it is otherwise. -/
lemma check_cases (whole : Span) (n : Node) : (maxTreeDepth < n.depth ∨ n.Begins (·.error ≠ .ref)) ∧ (check whole n).IsError ∨
    n.depth ≤ maxTreeDepth ∧ (n.Clean ∨ n.Begins (·.error = .ref)) ∧ check whole n = n := by
  rw [check]
  split
  · rename_i hdepth
    exact .inl ⟨.inl hdepth, whole, .tooDeep, rfl, by decide⟩
  · rename_i hdepth
    rcases n.clean_or_begins with hc | ⟨s, p, hfirst, hp⟩ | ⟨s, p, hfirst, hp⟩
    · exact .inr ⟨Nat.le_of_not_lt hdepth, .inl hc, by rw [show n.firstInvalid? = none from hc]⟩
    · refine .inl ⟨.inr ⟨s, p, hfirst, hp⟩, whole, p, ?_, hp⟩
      rw [hfirst]
      exact if_neg hp
    · refine .inr ⟨Nat.le_of_not_lt hdepth, .inr ⟨s, p, hfirst, hp⟩, ?_⟩
      rw [hfirst]
      exact if_pos hp

lemma IsError.begins (h : n.IsError) : n.Begins (·.error ≠ .ref) := by
  obtain ⟨s, p, rfl, hp⟩ := h
  exact ⟨s, p, rfl, hp⟩

/-- A formula is one error just in case its tree is too deep or a syntax error comes before all references that could not be
bound. -/
theorem isError_ofTokens_iff : (Node.ofTokens b nodes).IsError ↔
    maxTreeDepth < (unchecked b nodes).depth ∨ (unchecked b nodes).Begins (·.error ≠ .ref) := by
  rcases check_cases (wholeSpan nodes) (unchecked b nodes) with ⟨hwhy, herror⟩ | ⟨hdepth, hfirst, hsame⟩
  · exact ⟨fun _ => hwhy, fun _ => herror⟩
  · have hnot : ¬ (unchecked b nodes).Begins (·.error ≠ .ref) := by
      rintro ⟨s, p, hp, hne⟩
      rcases hfirst with hc | ⟨t, q, hq, href⟩
      · cases hc.symm.trans hp
      · obtain ⟨-, rfl⟩ := Node.invalid.inj (Option.some.inj (hq.symm.trans hp))
        exact hne href
    refine ⟨fun herror => ?_, fun hwhy => (hwhy.elim (Nat.not_lt_of_le hdepth) hnot).elim⟩
    rw [Node.ofTokens, hsame] at herror
    exact (hnot (IsError.begins herror)).elim

theorem ofTokens_of_sound (h : (unchecked b nodes).Sound) (hdepth : (unchecked b nodes).depth ≤ maxTreeDepth) :
    Node.ofTokens b nodes = unchecked b nodes := check_of_sound h hdepth (wholeSpan nodes)

/-- A formula with a syntax error is one error, or else a reference before the syntax error could not be bound. -/
theorem isError_of_not_sound (h : ¬ (unchecked b nodes).Sound) :
    (Node.ofTokens b nodes).IsError ∨
      Node.ofTokens b nodes = unchecked b nodes ∧ (unchecked b nodes).Begins (·.error = .ref) := by
  rcases check_cases (wholeSpan nodes) (unchecked b nodes) with ⟨-, herror⟩ | ⟨-, hfirst, hsame⟩
  · exact .inl herror
  · exact .inr ⟨hsame, hfirst.resolve_left fun hc => h hc.sound⟩

/-- So it is with a formula that is not well formed. If all its references can be bound it is one error. -/
theorem isError_of_not_wellFormed (h : allWellFormed nodes = false) :
    ((Node.ofTokens b nodes).IsError ∨
      Node.ofTokens b nodes = unchecked b nodes ∧ (unchecked b nodes).Begins (·.error = .ref)) ∧
    ((unchecked b nodes).Only (·.error ≠ .ref) → (Node.ofTokens b nodes).IsError) := by
  have hnot : ¬ (unchecked b nodes).Sound := by
    intro hsound
    rw [allWellFormed_iff.2 fun n hn => ((spacedAll_of_unchecked hsound).2 n hn).wellFormed] at h
    cases h
  have hcases := isError_of_not_sound hnot
  exact ⟨hcases, fun hbound => hcases.resolve_right fun hmasked => hmasked.2.not_only (fun _ hp hne => hne hp) hbound⟩

/-- An unknown sheet in front hides that there is no error `#FOO`. -/
example : allWellFormed (ofText {} "=IFERROR(Missing!A1+#FOO,TRUE)") = false ∧
    (Node.parse {} "=IFERROR(Missing!A1+#FOO,TRUE)").display = "IFERROR((#REF!+#CALC!),TRUE)" ∧
    (Node.parse {} "=IFERROR(#FOO+Missing!A1,TRUE)").display = "#CALC!" := by
  decide +kernel

end Parse

end Spreadsheet.Formula
