import Mathlib.Data.List.Forall2
import Mathlib.Order.Lattice.Nat
import Spreadsheet.Proofs.Formula.Parse

/-! Trees in which nothing is invalid, and two ways to read nodes that go together. What the first way reads without a problem the
second way reads to a tree that goes together with it, if that is so of the expressions inside. -/

namespace Spreadsheet.Formula

open List (Forall₂)

namespace Node

variable {s : Span}

/-- Whatever is invalid in the tree has a problem of a kind. -/
def Only (fine : Problem → Prop) (n : Node) : Prop := ∀ s p, invalid s p ∈ n.nodes → fine p

/-- Nothing in the tree is invalid. -/
def Clean (n : Node) : Prop := n.firstInvalid? = none

/-- Nothing in the tree is invalid but references that could not be bound. -/
abbrev Sound (n : Node) : Prop := n.Only (·.error = .ref)

section

variable {fine : Problem → Prop} {n : Node}

lemma only_invalid {p : Problem} : (invalid s p).Only fine ↔ fine p := by simp [Only, nodes]

lemma only_literal {l : Literal} : (literal s l).Only fine := by simp [Only, nodes]

lemma only_reference {book sheet : Option String} {r : Range} : (reference s book sheet r).Only fine := by simp [Only, nodes]

lemma only_name {x : String} : (name s x).Only fine := by simp [Only, nodes]

lemma only_missing : (missing s).Only fine := by simp [Only, nodes]

lemma only_unary {op : UnaryOp} : (unary s op n).Only fine ↔ n.Only fine := by simp [Only, nodes]

lemma only_binary {op : BinaryOp} {l r : Node} : (binary s op l r).Only fine ↔ l.Only fine ∧ r.Only fine := by
  simp only [Only, nodes, List.mem_cons, List.mem_append, reduceCtorEq, false_or]
  exact ⟨fun h => ⟨fun s p hm => h s p (.inl hm), fun s p hm => h s p (.inr hm)⟩,
    fun h s p hm => hm.elim (h.1 s p) (h.2 s p)⟩

lemma only_call {f : String} {args : List Node} : (call s f args).Only fine ↔ ∀ n ∈ args, n.Only fine := by
  simp only [Only, nodes, List.mem_cons, mem_nodesOfAll, reduceCtorEq, false_or]
  exact ⟨fun h n hn s p hm => h s p ⟨n, hn, hm⟩, fun h s p ⟨n, hn, hm⟩ => h n hn s p hm⟩

lemma only_union {items : List Node} : (union s items).Only fine ↔ ∀ n ∈ items, n.Only fine := by
  simp only [Only, nodes, List.mem_cons, mem_nodesOfAll, reduceCtorEq, false_or]
  exact ⟨fun h n hn s p hm => h s p ⟨n, hn, hm⟩, fun h s p ⟨n, hn, hm⟩ => h n hn s p hm⟩

lemma only_array {rows : List (List Node)} : (array s rows).Only fine ↔ ∀ row ∈ rows, ∀ n ∈ row, n.Only fine := by
  simp only [Only, nodes, List.mem_cons, mem_nodesOfRows, reduceCtorEq, false_or]
  exact ⟨fun h row hrow n hn s p hm => h s p ⟨row, hrow, n, hn, hm⟩,
    fun h s p ⟨row, hrow, n, hn, hm⟩ => h row hrow n hn s p hm⟩

lemma clean_iff_only : n.Clean ↔ n.Only fun _ => False := by
  simp only [Clean, firstInvalid?, List.find?_eq_none, Only]
  constructor
  · exact fun h s p hmem => h _ hmem rfl
  · intro h m hm hinvalid
    cases m with
    | invalid s p => exact h s p hm
    | _ => cases hinvalid

lemma Clean.sound (h : n.Clean) : n.Sound := fun s p hmem => (clean_iff_only.1 h s p hmem).elim

end

lemma not_sound {p : Problem} (h : p.error ≠ .ref) : ¬ (invalid s p).Sound := fun hs => h (only_invalid.1 hs)

lemma not_clean_invalid {p : Problem} : ¬ (invalid s p).Clean := by simp [clean_iff_only, only_invalid]

lemma clean_literal {l : Literal} : (literal s l).Clean := clean_iff_only.2 only_literal

lemma clean_reference {book sheet : Option String} {r : Range} : (reference s book sheet r).Clean :=
  clean_iff_only.2 only_reference

lemma clean_name {x : String} : (name s x).Clean := clean_iff_only.2 only_name

lemma clean_missing : (missing s).Clean := clean_iff_only.2 only_missing

lemma clean_unary {op : UnaryOp} {n : Node} : (unary s op n).Clean ↔ n.Clean := by simp only [clean_iff_only, only_unary]

lemma clean_binary {op : BinaryOp} {l r : Node} : (binary s op l r).Clean ↔ l.Clean ∧ r.Clean := by
  simp only [clean_iff_only, only_binary]

lemma clean_call {f : String} {args : List Node} : (call s f args).Clean ↔ ∀ n ∈ args, n.Clean := by
  simp only [clean_iff_only, only_call]

lemma clean_union {items : List Node} : (union s items).Clean ↔ ∀ n ∈ items, n.Clean := by
  simp only [clean_iff_only, only_union]

lemma clean_array {rows : List (List Node)} : (array s rows).Clean ↔ ∀ row ∈ rows, ∀ n ∈ row, n.Clean := by
  simp only [clean_iff_only, only_array]

end Node

namespace Parse

open Node

variable {b : Binder} {inner inner' : ExprParser} {precedence stop stop' fuel fuel' : Nat} {left left' : Node}
  {l l' rest : List TokenTree} {s s' : Span} {Nodes Rest : List TokenTree → List TokenTree → Prop}
  {Spans : Span → Span → Prop} {Trees : Node → Node → Prop}

/-- Two ways to read nodes. Where the first one finds no problem, it gives trees that go together for nodes that go together. -/
structure Parallel (inner inner' : ExprParser) (Nodes : List TokenTree → List TokenTree → Prop) (Spans : Span → Span → Prop)
    (Trees : Node → Node → Prop) : Prop where
  isEmpty : ∀ {l l'}, Nodes l l' → l'.isEmpty = l.isEmpty
  arguments : ∀ {l l' s s'}, Nodes l l' → Spans s s' →
    Forall₂ (fun x y => Nodes x.1 y.1 ∧ Spans x.2 y.2) (split isArgumentSeparator s l) (split isArgumentSeparator s' l')
  columns : ∀ {l l' s s'}, Nodes l l' → Spans s s' →
    Forall₂ (fun x y => Nodes x.1 y.1 ∧ Spans x.2 y.2) (split isColumnSeparator s l) (split isColumnSeparator s' l')
  rows : ∀ {l l' s s'}, Nodes l l' → Spans s s' →
    Forall₂ (fun x y => Nodes x.1 y.1 ∧ Spans x.2 y.2) (split isRowSeparator s l) (split isRowSeparator s' l')
  sequence : ∀ {l l' s s'}, Nodes l l' → Spans s s' → (sequence inner l s).Clean →
    Trees (sequence inner l s) (sequence inner' l' s')
  missingNode : ∀ {s s'}, Spans s s' → Trees (.missing s) (.missing s')
  callNode : ∀ {s s' f args args'}, Spans s s' → Forall₂ Trees args args' → Trees (.call s f args) (.call s' f args')
  arrayNode : ∀ {s s' items items'}, Spans s s' → Forall₂ (Forall₂ Trees) items items' → Trees (.array s items) (.array s' items')
  unionNode : ∀ {s s' items items'}, Spans s s' → Forall₂ Trees items items' → Trees (.union s items) (.union s' items')

lemma find?_parallel {α β : Type} {R : α → β → Prop} {p : α → Bool} {q : β → Bool} {l : List α} {l' : List β}
    (h : Forall₂ R l l') (hq : ∀ a b, R a b → q b = p a) (hl : l.find? p = none) : l'.find? q = none := by
  induction h with
  | nil => rfl
  | cons hab _ ih =>
    rw [List.find?_cons] at hl ⊢
    rw [hq _ _ hab]
    split at hl
    · cases hl
    · exact ih hl

lemma any_parallel {α β : Type} {R : α → β → Prop} {p : α → Bool} {q : β → Bool} {l : List α} {l' : List β}
    (h : Forall₂ R l l') (hq : ∀ a b, R a b → q b = p a) : l'.any q = l.any p := by
  induction h with
  | nil => rfl
  | cons hab _ ih => rw [List.any_cons, List.any_cons, hq _ _ hab, ih]

namespace Parallel

lemma ofEq (hempty : ∀ {l l'}, Nodes l l' → l'.isEmpty = l.isEmpty)
    (hsplit : ∀ isSeparator ∈ [isArgumentSeparator, isColumnSeparator, isRowSeparator], ∀ {l l' s}, Nodes l l' →
      Forall₂ (fun x y => Nodes x.1 y.1 ∧ x.2 = y.2) (split isSeparator s l) (split isSeparator s l'))
    (hsequence : ∀ {l l' s}, Nodes l l' → (Parse.sequence inner l s).Clean →
      Parse.sequence inner l s = Parse.sequence inner' l' s) : Parallel inner inner' Nodes Eq Eq where
  isEmpty := hempty
  arguments hl hs := hs ▸ hsplit _ (by simp) hl
  columns hl hs := hs ▸ hsplit _ (by simp) hl
  rows hl hs := hs ▸ hsplit _ (by simp) hl
  sequence hl hs hc := hs ▸ hsequence hl hc
  missingNode hs := hs ▸ rfl
  callNode hs hargs := by
    rw [List.forall₂_eq_eq_eq] at hargs
    rw [hs, hargs]
  arrayNode hs hitems := by
    rw [List.forall₂_eq_eq_eq, List.forall₂_eq_eq_eq] at hitems
    rw [hs, hitems]
  unionNode hs hitems := by
    rw [List.forall₂_eq_eq_eq] at hitems
    rw [hs, hitems]

section

variable (h : Parallel inner inner' Nodes Spans Trees)

include h

lemma stretches {empty : Span → Node} (hempty : ∀ s s', Spans s s' → (empty s).Clean → Trees (empty s) (empty s'))
    {parts parts' : List (List TokenTree × Span)} (hparts : Forall₂ (fun x y => Nodes x.1 y.1 ∧ Spans x.2 y.2) parts parts')
    (hc : ∀ n ∈ stretches inner empty parts, n.Clean) :
    Forall₂ Trees (stretches inner empty parts) (stretches inner' empty parts') := by
  induction hparts with
  | nil => exact .nil
  | @cons part part' parts parts' hpart _ ih =>
    obtain ⟨hnode, hrest⟩ := List.forall_mem_cons.1 hc
    obtain ⟨nodes, span⟩ := part
    obtain ⟨nodes', span'⟩ := part'
    obtain ⟨hnodes, hspan⟩ := hpart
    refine .cons ?_ (ih hrest)
    dsimp only at hnodes hspan hnode ⊢
    rw [h.isEmpty hnodes]
    split at hnode
    · rename_i hnil
      rw [if_pos hnil, if_pos hnil]
      exact hempty _ _ hspan hnode
    · rename_i hne
      rw [if_neg hne, if_neg hne]
      exact h.sequence hnodes hspan hnode

lemma parentheses (hl : Nodes l l') (hs : Spans s s') (hc : (parentheses inner l s).Clean) :
    Trees (parentheses inner l s) (parentheses inner' l' s') := by
  have hparts := h.arguments hl hs
  have hunion : ∀ {parts parts' : List (List TokenTree × Span)}, Forall₂ (fun x y => Nodes x.1 y.1 ∧ Spans x.2 y.2) parts parts' →
      (Node.union s (Parse.stretches inner (.invalid · .emptyUnionItem) parts)).Clean →
      Trees (.union s (Parse.stretches inner (.invalid · .emptyUnionItem) parts))
        (.union s' (Parse.stretches inner' (.invalid · .emptyUnionItem) parts')) := fun hparts hc =>
    h.unionNode hs (h.stretches (fun _ _ _ hc => absurd hc not_clean_invalid) hparts (clean_union.1 hc))
  unfold Parse.parentheses at hc ⊢
  generalize split isArgumentSeparator s l = parts at hparts hc
  generalize split isArgumentSeparator s' l' = parts' at hparts
  cases hparts with
  | nil => exact hunion .nil hc
  | @cons part part' _ _ hpart hrest =>
    cases hrest with
    | nil =>
      obtain ⟨nodes, span⟩ := part
      obtain ⟨nodes', span'⟩ := part'
      obtain ⟨hnodes, hspan⟩ := hpart
      dsimp only at hnodes hspan hc ⊢
      rw [h.isEmpty hnodes]
      split at hc
      · exact absurd hc not_clean_invalid
      · rename_i hne
        rw [if_neg hne, if_neg hne]
        exact h.sequence hnodes hspan hc
    | cons hpart' hrest => exact hunion (.cons hpart (.cons hpart' hrest)) hc

lemma array (hl : Nodes l l') (hs : Spans s s') (hc : (Parse.array inner l s).Clean) :
    Trees (Parse.array inner l s) (Parse.array inner' l' s') := by
  have hrows : Forall₂ (Forall₂ fun x y => Nodes x.1 y.1 ∧ Spans x.2 y.2)
      ((split isRowSeparator s l).map fun part => split isColumnSeparator part.2 part.1)
      ((split isRowSeparator s' l').map fun part => split isColumnSeparator part.2 part.1) :=
    List.rel_map (fun _ _ hpart => h.columns hpart.1 hpart.2) (h.rows hl hs)
  unfold Parse.array at hc ⊢
  dsimp only at hc ⊢
  generalize ((split isRowSeparator s l).map fun part => split isColumnSeparator part.2 part.1) = rows at hrows hc
  generalize ((split isRowSeparator s' l').map fun part => split isColumnSeparator part.2 part.1) = rows' at hrows
  have hwidth : (rows'.head?.map List.length).getD 0 = (rows.head?.map List.length).getD 0 := by
    cases hrows with
    | nil => rfl
    | cons hrow _ => exact hrow.length_eq.symm
  have hragged : ∀ width, (rows'.any fun row => row.length != width) = rows.any fun row => row.length != width := fun width =>
    any_parallel hrows fun row row' hrow => by rw [hrow.length_eq]
  split at hc
  · exact absurd hc not_clean_invalid
  · rename_i hfind
    rw [find?_parallel (List.rel_flatten hrows) (fun _ _ hpart => h.isEmpty hpart.1) hfind]
    dsimp only
    rw [hwidth, hragged]
    split at hc
    · exact absurd hc not_clean_invalid
    · rename_i hwidths
      rw [if_neg hwidths, if_neg hwidths]
      refine h.arrayNode hs ?_
      clear hwidth hragged hfind hwidths
      have hclean := clean_array.1 hc
      clear hc
      induction hrows with
      | nil => exact .nil
      | cons hrow _ ih =>
        rw [List.map_cons, List.forall_mem_cons] at hclean
        exact .cons (h.stretches (fun _ _ hs _ => h.missingNode hs) hrow hclean.1) (ih hclean.2)

lemma group {kind : GroupKind} {closed : Bool} (hl : Nodes l l') (hs : Spans s s') (hc : (group inner kind l s closed).Clean) :
    Trees (group inner kind l s closed) (group inner' kind l' s' closed) := by
  unfold Parse.group at hc ⊢
  split at hc
  · exact absurd hc not_clean_invalid
  · rename_i hclosed
    rw [if_neg hclosed, if_neg hclosed]
    cases kind with
    | paren => exact h.parentheses hl hs hc
    | brace => exact h.array hl hs hc
    | bracket => exact absurd hc not_clean_invalid

lemma call {f : String} {nameSpan nameSpan' : Span} {closed : Bool} (hl : Nodes l l') (hs : Spans s s')
    (hwhole : Spans (nameSpan.to s) (nameSpan'.to s')) (hc : (Parse.call inner f l nameSpan s closed).Clean) :
    Trees (Parse.call inner f l nameSpan s closed) (Parse.call inner' f l' nameSpan' s' closed) := by
  rw [Parse.call] at hc
  rw [Parse.call, Parse.call]
  split at hc
  · exact absurd hc not_clean_invalid
  · rename_i hclosed
    rw [if_neg hclosed, if_neg hclosed, h.isEmpty hl]
    split at hc
    · rename_i hempty
      rw [if_pos hempty, if_pos hempty]
      exact h.callNode hwhole .nil
    · rename_i hempty
      rw [if_neg hempty, if_neg hempty]
      exact h.callNode hwhole (h.stretches (fun _ _ hs _ => h.missingNode hs) (h.arguments hl hs) (clean_call.1 hc))

end

end Parallel

lemma sequence_parallel (Trees : Node → Node → Prop) (Rest : List TokenTree → List TokenTree → Prop)
    (hnil : ∀ {rest}, Rest [] rest → rest = [])
    (h : (inner 0 s.stop l).1.Clean →
      Trees (inner 0 s.stop l).1 (inner' 0 s'.stop l').1 ∧ Rest (inner 0 s.stop l).2 (inner' 0 s'.stop l').2)
    (hc : (sequence inner l s).Clean) : Trees (sequence inner l s) (sequence inner' l' s') := by
  cases hx : inner 0 s.stop l with
  | mk n rest =>
    cases rest with
    | cons extra rest => exact absurd hc (by simp only [sequence, hx]; exact not_clean_invalid)
    | nil =>
      have hn : (inner 0 s.stop l).1.Clean := by simpa only [sequence, hx] using hc
      obtain ⟨hnode, hrest⟩ := h hn
      rw [hx] at hnode hrest
      cases hx' : inner' 0 s'.stop l' with
      | mk n' rest' =>
        rw [hx'] at hnode hrest
        obtain rfl := hnil hrest
        simpa only [sequence, hx, hx'] using hnode

/-- What stands left of further operators stays a part of the tree. -/
lemma only_of_climb {fine : Problem → Prop}
    (hc : (climb inner precedence stop fuel left rest).1.Only fine) : left.Only fine := by
  fun_induction climb inner precedence stop fuel left rest with
  | case1 => exact hc
  | case2 => exact hc
  | case3 _ _ _ _ _ _ _ ih => exact only_unary.1 (ih hc)
  | case4 => exact hc
  | case5 _ _ _ _ _ _ _ _ _ _ _ ih => exact (only_binary.1 (ih hc)).1
  | case6 => exact hc

lemma clean_of_climb (hc : (climb inner precedence stop fuel left rest).1.Clean) : left.Clean :=
  clean_iff_only.2 (only_of_climb (clean_iff_only.1 hc))

/-! Parsing uses nodes up, so there are always enough levels for the operators that are left. -/

def Shrinks (inner : ExprParser) : Prop := ∀ precedence stop nodes, (inner precedence stop nodes).2.length ≤ nodes.length

lemma length_climb_le (h : Shrinks inner) (fuel : Nat) :
    (climb inner precedence stop fuel left rest).2.length ≤ rest.length := by
  fun_induction climb inner precedence stop fuel left rest with
  | case1 => exact Nat.le_refl _
  | case2 => exact Nat.le_refl _
  | case3 _ _ _ _ _ _ _ ih => exact ih.trans (Nat.le_succ _)
  | case4 => exact Nat.le_refl _
  | case5 _ _ _ _ rest op _ _ _ _ hx ih =>
    have hle := h (op.precedence + 1) stop rest
    rw [hx] at hle
    exact (ih.trans hle).trans (Nat.le_succ _)
  | case6 => exact Nat.le_refl _

lemma length_operand_le (h : Shrinks inner) (nodes : List TokenTree) :
    (operand b inner stop nodes).2.length ≤ nodes.length := by
  have hsign : ∀ rest, (inner UnaryOp.negate.precedence stop rest).2.length ≤ rest.length + 1 := fun rest =>
    (h _ _ rest).trans (Nat.le_succ _)
  unfold operand
  split
  · exact Nat.le_refl _
  · exact Nat.le_succ _
  · exact Nat.le_succ _
  · split
    · exact hsign _
    · exact hsign _
    all_goals try exact Nat.le_succ _
    split
    · simp only [List.length_cons]
      omega
    · exact Nat.le_succ _

lemma shrinks_expression (n : Nat) : Shrinks (expression b n) := by
  induction n with
  | zero => exact fun _ _ nodes => Nat.zero_le _
  | succ n ih => exact fun _ stop nodes => (length_climb_le ih _).trans (length_operand_le ih nodes)

/-- Nodes that begin with the same operator, or both with none. -/
inductive Heads (After : OperatorSign → List TokenTree → List TokenTree → Prop) (Spans : Span → Span → Prop) :
    List TokenTree → List TokenTree → Prop
  | operator {o : OperatorSign} {s s' : Span} {l l' : List TokenTree} (hs : Spans s s') (h : After o l l') :
      Heads After Spans (.token (.operator o) s :: l) (.token (.operator o) s' :: l')
  | other {l l' : List TokenTree} (h : ∀ o s rest, l ≠ .token (.operator o) s :: rest)
      (h' : ∀ o s rest, l' ≠ .token (.operator o) s :: rest) : Heads After Spans l l'

/-- Two ways to read on after an operand. -/
structure Climbing (inner inner' : ExprParser) (Rest : List TokenTree → List TokenTree → Prop)
    (After : OperatorSign → List TokenTree → List TokenTree → Prop) (Spans : Span → Span → Prop)
    (Trees : Node → Node → Prop) : Prop where
  heads : ∀ {l l'}, Rest l l' → Heads After Spans l l'
  percent : ∀ {l l'}, After .percent l l' → Rest l l'
  right : ∀ {o op l l'} (stop stop' : Nat), o.binary? = some op → After o l l' → (inner (op.precedence + 1) stop l).1.Clean →
    Trees (inner (op.precedence + 1) stop l).1 (inner' (op.precedence + 1) stop' l').1 ∧
      Rest (inner (op.precedence + 1) stop l).2 (inner' (op.precedence + 1) stop' l').2
  unaryNode : ∀ {s s' n n'}, Spans s s' → Trees n n' →
    Trees (.unary (n.span.to s) .percent n) (.unary (n'.span.to s') .percent n')
  binaryNode : ∀ {op n n' m m'}, Trees n n' → Trees m m' →
    Trees (.binary (n.span.to m.span) op n m) (.binary (n'.span.to m'.span) op n' m')

lemma climb_other (h : ∀ o s rest', rest ≠ .token (.operator o) s :: rest') :
    climb inner precedence stop fuel left rest = (left, rest) := by
  cases fuel with
  | zero => rfl
  | succ fuel => exact climb.eq_3 _ _ _ _ _ _ nofun fun _ o s rest' _ => h o s rest'

lemma Climbing.climb {After : OperatorSign → List TokenTree → List TokenTree → Prop}
    (h : Climbing inner inner' Rest After Spans Trees) (hshrinks : Shrinks inner) (hshrinks' : Shrinks inner')
    (hrest : Rest l l') (hfuel : l.length ≤ fuel) (hfuel' : l'.length ≤ fuel') (hleft : Trees left left')
    (hc : (climb inner precedence stop fuel left l).1.Clean) :
    Trees (climb inner precedence stop fuel left l).1 (climb inner' precedence stop' fuel' left' l').1 ∧
      Rest (Parse.climb inner precedence stop fuel left l).2 (Parse.climb inner' precedence stop' fuel' left' l').2 := by
  -- on the fuel, which the nodes that are left always fit in, so the two sides may have different amounts of it
  induction fuel generalizing fuel' left left' l l' with
  | zero =>
    obtain rfl := List.eq_nil_of_length_eq_zero (Nat.le_zero.1 hfuel)
    cases h.heads hrest with
    | other _ h' =>
      rw [climb_other h']
      exact ⟨hleft, hrest⟩
  | succ fuel ih =>
    cases h.heads hrest with
    | other hother hother' =>
      rw [climb_other hother, climb_other hother']
      exact ⟨hleft, hrest⟩
    | @operator o s s' l l' hs hafter =>
      obtain ⟨fuel', rfl⟩ : ∃ k, fuel' = k + 1 := ⟨fuel' - 1, by simp only [List.length_cons] at hfuel'; omega⟩
      have hl : l.length ≤ fuel := Nat.le_of_succ_le_succ hfuel
      have hl' : l'.length ≤ fuel' := Nat.le_of_succ_le_succ hfuel'
      rw [Parse.climb] at hc
      rw [Parse.climb, Parse.climb]
      cases ho : o.binary? with
      | none =>
        obtain rfl : o = .percent := by cases o <;> first | rfl | cases ho
        rw [ho] at hc
        dsimp only at hc ⊢
        split at hc
        · rename_i hp
          rw [if_pos hp, if_pos hp]
          exact ⟨hleft, hrest⟩
        · rename_i hp
          rw [if_neg hp, if_neg hp]
          exact ih (h.percent hafter) hl hl' (h.unaryNode hs hleft) hc
      | some op =>
        rw [ho] at hc
        dsimp only at hc ⊢
        split at hc
        · rename_i hp
          rw [if_pos hp, if_pos hp]
          exact ⟨hleft, hrest⟩
        · rename_i hp
          rw [if_neg hp, if_neg hp]
          obtain ⟨hright, hback⟩ := h.right stop stop' ho hafter (clean_binary.1 (clean_of_climb hc)).2
          exact ih hback ((hshrinks _ _ _).trans hl) ((hshrinks' _ _ _).trans hl') (h.binaryNode hleft hright) hc

end Parse

end Spreadsheet.Formula
