import Mathlib.Data.List.Chain
import Spreadsheet.Proofs.Formula.Layout
import Spreadsheet.Proofs.Formula.Lexeme
import Spreadsheet.Proofs.Formula.Nesting

/-! A formula without a syntax error is well formed, and no operand comes right after a word in it. References that could not be
bound are no syntax errors. -/

namespace Spreadsheet.Formula

namespace TokenTree

variable {n m : TokenTree} {l r : List TokenTree}

def isWord : TokenTree → Bool
  | token t _ => (PieceKind.token t).isWord
  | _ => false

def startsOperand : TokenTree → Bool
  | token t _ => (PieceKind.token t).startsOperand
  | group .. => true
  | malformed .. => false

def Apart (n m : TokenTree) : Prop := n.isWord = true → m.startsOperand = false

/-- Nothing malformed, no bracket left open and no two operands side by side below a node. -/
inductive Spaced : TokenTree → Prop
  | token {t : Token} {s : Span} : Spaced (.token t s)
  | group {kind : GroupKind} {children : List TokenTree} {s : Span} (hkind : kind ≠ .bracket)
      (hchain : children.IsChain Apart) (h : ∀ n ∈ children, Spaced n) : Spaced (.group kind children s true)

def SpacedAll (l : List TokenTree) : Prop := l.IsChain Apart ∧ ∀ n ∈ l, n.Spaced

lemma spacedAll_nil : SpacedAll [] := ⟨.nil, fun _ h => nomatch h⟩

lemma SpacedAll.group {kind : GroupKind} {s : Span} (h : SpacedAll l) (hkind : kind ≠ .bracket) :
    (TokenTree.group kind l s true).Spaced := .group hkind h.1 h.2

lemma SpacedAll.cons (hl : SpacedAll l) (hn : n.Spaced) (hw : n.isWord = false) : SpacedAll (n :: l) := by
  refine ⟨List.isChain_cons.2 ⟨fun m _ hword => ?_, hl.1⟩, List.forall_mem_cons.2 ⟨hn, hl.2⟩⟩
  rw [hw] at hword
  cases hword

lemma spacedAll_singleton (hn : n.Spaced) : SpacedAll [n] :=
  ⟨.singleton n, List.forall_mem_cons.2 ⟨hn, fun _ h => nomatch h⟩⟩

lemma SpacedAll.append (hl : SpacedAll l) (hr : SpacedAll r) (h : ∀ m ∈ r.head?, m.startsOperand = false) :
    SpacedAll (l ++ r) :=
  ⟨List.isChain_append.2 ⟨hl.1, hr.1, fun _ _ m hm _ => h m hm⟩, List.forall_mem_append.2 ⟨hl.2, hr.2⟩⟩

lemma SpacedAll.join {t : Token} {s : Span} (hl : SpacedAll l) (hr : SpacedAll r) (hw : (PieceKind.token t).isWord = false)
    (hs : (PieceKind.token t).startsOperand = false) : SpacedAll (l ++ .token t s :: r) := by
  refine hl.append (hr.cons .token hw) ?_
  rintro m ⟨⟩
  exact hs

end TokenTree

namespace Parse

open Node TokenTree

variable {b : Binder} {inner : ExprParser} {nodes : List TokenTree} {span : Span} {stop precedence : Nat}

/-- What a parser takes off the front is spaced. -/
def TakesSpaced (inner : ExprParser) : Prop := ∀ precedence stop nodes, (inner precedence stop nodes).1.Sound →
  ∃ taken, nodes = taken ++ (inner precedence stop nodes).2 ∧ SpacedAll taken

lemma spacedAll_splitFrom {isSeparator : Token → Bool} {stop start : Nat} {stretch : List TokenTree}
    (hsep : ∀ t, isSeparator t = true → (PieceKind.token t).isWord = false ∧ (PieceKind.token t).startsOperand = false)
    (h : ∀ part ∈ splitFrom isSeparator stop start stretch nodes, SpacedAll part.1) : SpacedAll (stretch.reverse ++ nodes) := by
  fun_induction splitFrom isSeparator stop start stretch nodes with
  | case1 => simpa using h
  | case2 start stretch t s ns ht ih =>
    obtain ⟨hstretch, hrest⟩ := List.forall_mem_cons.1 h
    exact hstretch.join (ih hrest) (hsep t ht).1 (hsep t ht).2
  | case3 start stretch t s ns _ ih => simpa using ih h
  | case4 start stretch n ns _ ih => simpa using ih h

lemma spacedAll_split {isSeparator : Token → Bool} (outer : Span)
    (hsep : ∀ t, isSeparator t = true → (PieceKind.token t).isWord = false ∧ (PieceKind.token t).startsOperand = false)
    (h : ∀ part ∈ split isSeparator outer nodes, SpacedAll part.1) : SpacedAll nodes := spacedAll_splitFrom hsep h

lemma isArgumentSeparator_plain (t : Token) (h : isArgumentSeparator t = true) :
    (PieceKind.token t).isWord = false ∧ (PieceKind.token t).startsOperand = false := by
  cases t <;> first | exact ⟨rfl, rfl⟩ | cases h

lemma isColumnSeparator_plain (t : Token) (h : isColumnSeparator t = true) :
    (PieceKind.token t).isWord = false ∧ (PieceKind.token t).startsOperand = false := by
  cases t <;> first | exact ⟨rfl, rfl⟩ | cases h

lemma isRowSeparator_plain (t : Token) (h : isRowSeparator t = true) :
    (PieceKind.token t).isWord = false ∧ (PieceKind.token t).startsOperand = false := by
  cases t <;> first | exact ⟨rfl, rfl⟩ | cases h

section Inner

variable (hi : TakesSpaced inner)

include hi

lemma spacedAll_of_sequence (hc : (sequence inner nodes span).Sound) : SpacedAll nodes := by
  cases hx : inner 0 span.stop nodes with
  | mk n rest =>
    cases rest with
    | cons extra rest => exact absurd hc (by simp only [sequence, hx]; exact not_sound (by decide))
    | nil =>
      have hn : (inner 0 span.stop nodes).1.Sound := by simpa only [sequence, hx] using hc
      obtain ⟨taken, hnodes, htaken⟩ := hi 0 span.stop nodes hn
      rw [hx, List.append_nil] at hnodes
      rwa [hnodes]

lemma spacedAll_of_stretches {empty : Span → Node} {parts : List (List TokenTree × Span)}
    (hc : ∀ n ∈ stretches inner empty parts, n.Sound) : ∀ part ∈ parts, SpacedAll part.1 := by
  rintro ⟨nodes, span⟩ hpart
  have hn := hc _ (List.mem_map_of_mem hpart)
  dsimp only at hn ⊢
  split at hn
  · rename_i hempty
    rw [List.isEmpty_iff.1 hempty]
    exact spacedAll_nil
  · exact spacedAll_of_sequence hi hn

lemma spacedAll_of_parentheses (hc : (parentheses inner nodes span).Sound) : SpacedAll nodes := by
  refine spacedAll_split span isArgumentSeparator_plain ?_
  rw [parentheses] at hc
  split at hc
  · rename_i nodes' part hsplit
    rw [hsplit]
    refine List.forall_mem_cons.2 ⟨?_, by rintro _ ⟨⟩⟩
    split at hc
    · exact absurd hc (not_sound (by decide))
    · exact spacedAll_of_sequence hi hc
  · exact spacedAll_of_stretches hi (only_union.1 hc)

lemma spacedAll_of_array (hc : (array inner nodes span).Sound) : SpacedAll nodes := by
  refine spacedAll_split span isRowSeparator_plain fun part hpart => ?_
  refine spacedAll_split part.2 isColumnSeparator_plain ?_
  rw [array] at hc
  dsimp only at hc
  split at hc
  · exact absurd hc (not_sound (by decide))
  · split at hc
    · exact absurd hc (not_sound (by decide))
    · have hrows := only_array.1 hc
      exact spacedAll_of_stretches hi (hrows _ (List.mem_map_of_mem (List.mem_map_of_mem hpart)))

lemma spaced_of_group {kind : GroupKind} {closed : Bool} (hc : (group inner kind nodes span closed).Sound) :
    (TokenTree.group kind nodes span closed).Spaced := by
  unfold group at hc
  cases closed with
  | false => exact absurd hc (not_sound (by decide))
  | true =>
    cases kind with
    | paren => exact (spacedAll_of_parentheses hi hc).group (by decide)
    | brace => exact (spacedAll_of_array hi hc).group (by decide)
    | bracket => exact absurd hc (not_sound (by decide))

lemma spaced_of_call {f : String} {nameSpan : Span} {closed : Bool} (hc : (call inner f nodes nameSpan span closed).Sound) :
    (TokenTree.group .paren nodes span closed).Spaced := by
  rw [call] at hc
  cases closed with
  | false => exact absurd hc (not_sound (by simp [Problem.error]))
  | true =>
    refine SpacedAll.group ?_ (by decide)
    split at hc
    · contradiction
    · split at hc
      · rename_i hempty
        rw [List.isEmpty_iff.1 hempty]
        exact spacedAll_nil
      · exact spacedAll_split span isArgumentSeparator_plain (spacedAll_of_stretches hi (only_call.1 hc))

lemma takes_operand (hc : (operand b inner stop nodes).1.Sound) :
    ∃ taken, nodes = taken ++ (operand b inner stop nodes).2 ∧ SpacedAll taken := by
  have hone : ∀ {t : Token} {s : Span} {rest : List TokenTree},
      ∃ taken, .token t s :: rest = taken ++ rest ∧ SpacedAll taken := fun {t s rest} =>
    ⟨[.token t s], rfl, spacedAll_singleton .token⟩
  have hsign : ∀ {o : OperatorSign} {s : Span} {rest : List TokenTree} {precedence : Nat}, (inner precedence stop rest).1.Sound →
      ∃ taken, .token (.operator o) s :: rest = taken ++ (inner precedence stop rest).2 ∧ SpacedAll taken := by
    intro o s rest precedence hc
    obtain ⟨taken, hrest, htaken⟩ := hi precedence stop rest hc
    exact ⟨.token (.operator o) s :: taken, by rw [List.cons_append, ← hrest], htaken.cons .token rfl⟩
  unfold operand at hc ⊢
  split at hc
  · exact absurd hc (not_sound (by decide))
  · exact ⟨[_], rfl, spacedAll_singleton (spaced_of_group hi hc)⟩
  · exact absurd hc (not_sound (by simp [Problem.error]))
  · split at hc
    · exact hsign (only_unary.1 hc)
    · exact hsign hc
    · exact hone
    · exact hone
    · exact hone
    · exact hone
    · exact hone
    · exact hone
    · split at hc
      · exact ⟨[_, _], rfl, (spacedAll_singleton (spaced_of_call hi hc)).cons .token rfl⟩
      · exact absurd hc (not_sound (by simp [Problem.error]))
    all_goals exact absurd hc (not_sound (by decide))

lemma takes_climb {fuel : Nat} {left : Node} (hc : (climb inner precedence stop fuel left nodes).1.Sound) :
    ∃ taken, nodes = taken ++ (climb inner precedence stop fuel left nodes).2 ∧ SpacedAll taken ∧
      ∀ n ∈ taken.head?, n.startsOperand = false := by
  have hnone : ∀ {rest : List TokenTree}, ∃ taken, rest = taken ++ rest ∧ SpacedAll taken ∧
      ∀ n ∈ taken.head?, n.startsOperand = false := ⟨[], rfl, spacedAll_nil, fun _ h => nomatch h⟩
  fun_induction climb inner precedence stop fuel left nodes with
  | case1 => exact hnone
  | case2 => exact hnone
  | case3 fuel left o span rest _ _ ih =>
    obtain ⟨taken, hrest, htaken, -⟩ := ih hc
    refine ⟨.token (.operator o) span :: taken, by rw [List.cons_append, ← hrest], htaken.cons .token rfl, ?_⟩
    rintro n ⟨⟩
    rfl
  | case4 => exact hnone
  | case5 fuel left o span rest op _ _ right rest' hx ih =>
    obtain ⟨taken, hrest, htaken, hhead⟩ := ih hc
    have hright : (inner (op.precedence + 1) stop rest).1.Sound := by
      rw [hx]
      exact (only_binary.1 (only_of_climb hc)).2
    obtain ⟨taken', hrest', htaken'⟩ := hi (op.precedence + 1) stop rest hright
    rw [hx] at hrest'
    refine ⟨.token (.operator o) span :: (taken' ++ taken), ?_, (htaken'.append htaken hhead).cons .token rfl, ?_⟩
    · rw [List.cons_append, List.append_assoc, ← hrest, ← hrest']
    · rintro n ⟨⟩
      rfl
  | case6 => exact hnone

end Inner

lemma takesSpaced_expression (nesting : Nat) : TakesSpaced (expression b nesting) := by
  induction nesting with
  | zero => exact fun _ _ _ hc => absurd hc (not_sound (by decide))
  | succ nesting ih =>
    intro precedence stop nodes hc
    rw [expression] at hc ⊢
    cases hx : operand b (expression b nesting) stop nodes with
    | mk left rest =>
      rw [hx] at hc
      have hleft : (operand b (expression b nesting) stop nodes).1.Sound := by
        rw [hx]
        exact only_of_climb hc
      obtain ⟨taken, hnodes, htaken⟩ := takes_operand ih hleft
      rw [hx] at hnodes
      obtain ⟨taken', hrest, htaken', hhead⟩ := takes_climb ih hc
      refine ⟨taken ++ taken', ?_, htaken.append htaken' hhead⟩
      rw [List.append_assoc, ← hrest, ← hnodes]

lemma spacedAll_of_unchecked (hc : (unchecked b nodes).Sound) : SpacedAll nodes :=
  spacedAll_of_sequence (takesSpaced_expression maxNesting) hc

end Parse

namespace TokenTree

/-! Pieces that are nested to a spaced tree. -/

variable {n : TokenTree} {opened : List OpenGroup} {level : List TokenTree} {pos stop : Nat} {pieces : List Piece}

/-- The nodes before a position are spaced, and no bracket was opened right after a word. -/
def SpacedSoFar : List OpenGroup → List TokenTree → Prop
  | [], level => SpacedAll level.reverse
  | g :: opened, level => SpacedAll level.reverse ∧ g.kind ≠ .bracket ∧ (∀ n ∈ g.before.head?, n.isWord = false) ∧
      SpacedSoFar opened g.before

lemma SpacedSoFar.spacedAll (h : SpacedSoFar opened level) : SpacedAll level.reverse := by
  cases opened with
  | nil => exact h
  | cons g opened => exact h.1

lemma SpacedSoFar.pop (h : SpacedSoFar opened (n :: level)) :
    SpacedSoFar opened level ∧ n.Spaced ∧ ∀ m ∈ level.head?, Apart m n := by
  have hlevel := h.spacedAll
  rw [List.reverse_cons] at hlevel
  obtain ⟨hchain, hall⟩ := hlevel
  obtain ⟨hchain, -, hlast⟩ := List.isChain_append.1 hchain
  obtain ⟨hall, hn⟩ := List.forall_mem_append.1 hall
  refine ⟨?_, hn n (by simp), fun m hm => hlast m ?_ n rfl⟩
  · cases opened with
    | nil => exact ⟨hchain, hall⟩
    | cons g opened => exact ⟨⟨hchain, hall⟩, h.2⟩
  · rwa [List.getLast?_reverse]

lemma spacedSoFar_of_closeAll (h : SpacedAll (closeAll stop opened level)) : SpacedSoFar opened level := by
  induction opened generalizing level with
  | nil => exact h
  | cons g opened ih => cases (ih h).pop.2.1

lemma spacedSoFar_of_nest (h : SpacedAll (nest opened level pos pieces)) : SpacedSoFar opened level := by
  fun_induction nest opened level pos pieces with
  | case1 => exact spacedSoFar_of_closeAll h
  | case2 _ _ _ _ _ _ _ ih => exact ih h
  | case3 _ _ _ _ _ _ _ _ ih => exact (ih h).pop.1
  | case4 _ _ _ _ _ _ _ _ ih => exact (ih h).pop.1
  | case5 _ _ _ _ _ _ _ _ ih => exact (ih h).2.2.2
  | case6 level pos p pieces next g opened _ ih =>
    obtain ⟨hbefore, hgroup, hhead⟩ := (ih h).pop
    cases hgroup with
    | group hkind hchain hall =>
      refine ⟨⟨hchain, hall⟩, hkind, fun n hn => ?_, hbefore⟩
      rw [Bool.eq_false_iff]
      intro hword
      cases hhead n hn hword
  | case7 _ _ _ _ _ _ ih => exact ih h

/-- Pieces after the nodes `level`: legible, and no operand begins right after a word. -/
structure Legible (level : List TokenTree) (pieces : List Piece) : Prop where
  all : ∀ p ∈ pieces, p.kind.isLegible = true
  chain : pieces.IsChain fun p q => p.kind.isWord = true → q.kind.startsOperand = false
  head : ∀ n ∈ level.head?, n.isWord = true → ∀ p ∈ pieces.head?, p.kind.startsOperand = false

lemma Legible.cons {p : Piece} {level' : List TokenTree} (h : Legible level' pieces) (hp : p.kind.isLegible = true)
    (hword : p.kind.isWord = true → ∃ n ∈ level'.head?, n.isWord = true)
    (hhead : ∀ n ∈ level.head?, n.isWord = true → p.kind.startsOperand = false) : Legible level (p :: pieces) where
  all := List.forall_mem_cons.2 ⟨hp, h.all⟩
  chain := List.isChain_cons.2 ⟨fun q hq hpword => by
    obtain ⟨n, hn, hnword⟩ := hword hpword
    exact h.head n hn hnword q hq, h.chain⟩
  head := by
    rintro n hn hnword q ⟨⟩
    exact hhead n hn hnword

lemma legible_of_nest (h : SpacedAll (nest opened level pos pieces)) : Legible level pieces := by
  fun_induction nest opened level pos pieces with
  | case1 => exact ⟨by rintro _ ⟨⟩, .nil, by rintro _ _ _ _ ⟨⟩⟩
  | case2 opened level pos p pieces next hk ih =>
    exact (ih h).cons (by rw [hk]; rfl) (by rw [hk]; rintro ⟨⟩) fun _ _ _ => by rw [hk]; rfl
  | case3 opened level pos p pieces next t hk ih =>
    obtain ⟨-, -, hapart⟩ := (spacedSoFar_of_nest h).pop
    exact (ih h).cons (by rw [hk]; rfl) (fun hword => ⟨_, rfl, by rw [hk] at hword; exact hword⟩) fun n hn hword => by
      rw [hk]
      exact hapart n hn hword
  | case4 opened level pos p pieces next m hk ih => cases (spacedSoFar_of_nest h).pop.2.1
  | case5 opened level pos p pieces next k hk ih =>
    obtain ⟨-, hkind, hhead, -⟩ := spacedSoFar_of_nest h
    refine (ih h).cons ?_ (by rw [hk]; rintro ⟨⟩) fun n hn hword => ?_
    · rw [hk]
      cases k with
      | bracket => exact absurd rfl hkind
      | paren | brace => rfl
    · rw [hhead n hn] at hword
      cases hword
  | case6 level pos p pieces next g opened hk ih =>
    exact (ih h).cons (by rw [hk]; rfl) (by rw [hk]; rintro ⟨⟩) fun _ _ _ => by rw [hk]; rfl
  | case7 level pos p pieces next hk ih =>
    exact (ih h).cons (by rw [hk]; rfl) (by rw [hk]; rintro ⟨⟩) fun _ _ _ => by rw [hk]; rfl

end TokenTree

end Spreadsheet.Formula
