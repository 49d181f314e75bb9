import Spreadsheet.Formula.Shift
import Spreadsheet.Proofs.Formula.Nesting

/-! Formulas that are alike but for where their parts stand and for where their ranges lie. -/

namespace Spreadsheet.Formula

open List (Forall₂)

namespace Node

variable {move : Range → Option Range} {s : Span} {n : Node}

mutual

/-- The tree with its ranges moved and without its spans. A range that cannot move becomes `#REF!`. -/
def outline (move : Range → Option Range) : Node → Node
  | literal _ l => literal ⟨0, 0⟩ l
  | reference _ book sheet range =>
    match move range with
    | some range => reference ⟨0, 0⟩ book sheet range
    | none => literal ⟨0, 0⟩ (.error .ref)
  | name _ x => name ⟨0, 0⟩ x
  | unary _ op n => unary ⟨0, 0⟩ op (n.outline move)
  | binary _ op l r => binary ⟨0, 0⟩ op (l.outline move) (r.outline move)
  | call _ f args => call ⟨0, 0⟩ f (outlineAll move args)
  | array _ rows => array ⟨0, 0⟩ (outlineRows move rows)
  | union _ items => union ⟨0, 0⟩ (outlineAll move items)
  | missing _ => missing ⟨0, 0⟩
  | invalid _ p => invalid ⟨0, 0⟩ p

def outlineAll (move : Range → Option Range) : List Node → List Node
  | [] => []
  | n :: ns => n.outline move :: outlineAll move ns

def outlineRows (move : Range → Option Range) : List (List Node) → List (List Node)
  | [] => []
  | r :: rs => outlineAll move r :: outlineRows move rs

end

lemma outlineAll_eq (ns : List Node) : outlineAll move ns = ns.map (outline move) := by
  induction ns with
  | nil => rfl
  | cons n ns ih => rw [outlineAll, ih, List.map_cons]

lemma outlineRows_eq (rows : List (List Node)) : outlineRows move rows = rows.map fun row => row.map (outline move) := by
  induction rows with
  | nil => rfl
  | cons r rs ih => rw [outlineRows, ih, outlineAll_eq, List.map_cons]

mutual

lemma depth_outline : ∀ n : Node, (n.outline move).depth = n.depth
  | literal _ _ | name _ _ | missing _ | invalid _ _ => rfl
  | reference _ _ _ range => by
    rw [outline]
    split <;> rfl
  | unary _ _ n => by rw [outline, depth, depth, depth_outline n]
  | binary _ _ l r => by rw [outline, depth, depth, depth_outline l, depth_outline r]
  | call _ _ args => by rw [outline, depth, depth, depthOfAll_outline args]
  | array _ rows => by rw [outline, depth, depth, depthOfRows_outline rows]
  | union _ items => by rw [outline, depth, depth, depthOfAll_outline items]

lemma depthOfAll_outline : ∀ ns : List Node, depthOfAll (outlineAll move ns) = depthOfAll ns
  | [] => rfl
  | n :: ns => by rw [outlineAll, depthOfAll, depthOfAll, depth_outline n, depthOfAll_outline ns]

lemma depthOfRows_outline : ∀ rows : List (List Node), depthOfRows (outlineRows move rows) = depthOfRows rows
  | [] => rfl
  | r :: rs => by rw [outlineRows, depthOfRows, depthOfRows, depthOfAll_outline r, depthOfRows_outline rs]

end

mutual

lemma clean_outline : ∀ n : Node, (n.outline move).Clean ↔ n.Clean
  | literal _ _ => by simp only [outline, clean_literal]
  | name _ _ => by simp only [outline, clean_name]
  | missing _ => by simp only [outline, clean_missing]
  | invalid _ _ => by simp only [outline, not_clean_invalid]
  | reference _ _ _ range => by
    rw [outline]
    split <;> simp only [clean_reference, clean_literal]
  | unary _ _ n => by rw [outline, clean_unary, clean_unary, clean_outline n]
  | binary _ _ l r => by rw [outline, clean_binary, clean_binary, clean_outline l, clean_outline r]
  | call _ _ args => by rw [outline, clean_call, clean_call, cleanAll_outline args]
  | array _ rows => by rw [outline, clean_array, clean_array, cleanRows_outline rows]
  | union _ items => by rw [outline, clean_union, clean_union, cleanAll_outline items]

lemma cleanAll_outline : ∀ ns : List Node, (∀ n ∈ outlineAll move ns, n.Clean) ↔ ∀ n ∈ ns, n.Clean
  | [] => by simp [outlineAll]
  | n :: ns => by rw [outlineAll, List.forall_mem_cons, List.forall_mem_cons, clean_outline n, cleanAll_outline ns]

lemma cleanRows_outline : ∀ rows : List (List Node),
    (∀ row ∈ outlineRows move rows, ∀ n ∈ row, n.Clean) ↔ ∀ row ∈ rows, ∀ n ∈ row, n.Clean
  | [] => by simp [outlineRows]
  | r :: rs => by rw [outlineRows, List.forall_mem_cons, List.forall_mem_cons, cleanAll_outline r, cleanRows_outline rs]

end

end Node

/-! Tokens and trees of tokens. -/

/-- The same token, or a reference to the moved range. -/
inductive Token.Moves (move : Range → Option Range) : Token → Token → Prop
  | same {t : Token} (h : ∀ r, t ≠ .reference r) : Moves move t t
  | reference {r r' : ReferenceToken} {range range' : Range} (hbook : r'.book = r.book) (hsheet : r'.sheet = r.sheet)
      (h : Range.ofArea? r.area = some range) (h' : Range.ofArea? r'.area = some range') (hmove : move range = some range') :
      Moves move (.reference r) (.reference r')
  | fallen {r : ReferenceToken} {range : Range} (h : Range.ofArea? r.area = some range) (hmove : move range = none) :
      Moves move (.reference r) (.error .ref)

inductive TokenTree.Moves (move : Range → Option Range) : TokenTree → TokenTree → Prop
  | token {t t' : Token} {s s' : Span} (h : t.Moves move t') : Moves move (.token t s) (.token t' s')
  | group {kind : GroupKind} {children children' : List TokenTree} {s s' : Span} {closed : Bool}
      (h : Forall₂ (Moves move) children children') : Moves move (.group kind children s closed) (.group kind children' s' closed)
  | malformed {m : Malformation} {s s' : Span} : Moves move (.malformed m s) (.malformed m s')

namespace Parse

open Node

variable {move : Range → Option Range} {b : Binder} {inner : ExprParser} {nodes nodes' : List TokenTree}
  {span span' : Span} {stop stop' precedence : Nat}

/-- What is read from moved nodes is what is read from the nodes, moved. -/
def Carries (move : Range → Option Range) (inner : ExprParser) : Prop := ∀ precedence stop stop' nodes nodes',
  Forall₂ (TokenTree.Moves move) nodes nodes' → (inner precedence stop nodes).1.Clean →
    (inner precedence stop' nodes').1.outline some = (inner precedence stop nodes).1.outline move ∧
      Forall₂ (TokenTree.Moves move) (inner precedence stop nodes).2 (inner precedence stop' nodes').2

/-- Stretches of nodes that move. -/
abbrev PartMoves (move : Range → Option Range) (part part' : List TokenTree × Span) : Prop :=
  Forall₂ (TokenTree.Moves move) part.1 part'.1

lemma splitFrom_moves {isSeparator : Token → Bool} {start start' : Nat} {stretch stretch' : List TokenTree}
    (hsep : ∀ t t' : Token, t.Moves move t' → isSeparator t' = isSeparator t)
    (hstretch : Forall₂ (TokenTree.Moves move) stretch stretch') (h : Forall₂ (TokenTree.Moves move) nodes nodes') :
    Forall₂ (PartMoves move) (splitFrom isSeparator stop start stretch nodes)
      (splitFrom isSeparator stop' start' stretch' nodes') := by
  induction h generalizing start start' stretch stretch' with
  | nil => exact .cons (List.rel_reverse hstretch) .nil
  | cons hn hns ih =>
    cases hn with
    | @token t _ _ _ ht =>
      rw [splitFrom, splitFrom, hsep _ _ ht]
      split
      · exact .cons (List.rel_reverse hstretch) (ih .nil)
      · exact ih (.cons (.token ht) hstretch)
    | group hc => exact ih (.cons (.group hc) hstretch)
    | malformed => exact ih (.cons .malformed hstretch)

lemma split_moves {isSeparator : Token → Bool} (hsep : ∀ t t' : Token, t.Moves move t' → isSeparator t' = isSeparator t)
    (h : Forall₂ (TokenTree.Moves move) nodes nodes') :
    Forall₂ (PartMoves move) (split isSeparator span nodes) (split isSeparator span' nodes') := splitFrom_moves hsep .nil h

lemma isArgumentSeparator_moves (t t' : Token) (h : t.Moves move t') : isArgumentSeparator t' = isArgumentSeparator t := by
  cases h <;> rfl

lemma isColumnSeparator_moves (t t' : Token) (h : t.Moves move t') : isColumnSeparator t' = isColumnSeparator t := by
  cases h <;> rfl

lemma isRowSeparator_moves (t t' : Token) (h : t.Moves move t') : isRowSeparator t' = isRowSeparator t := by
  cases h <;> rfl

lemma isEmpty_moves (h : Forall₂ (TokenTree.Moves move) nodes nodes') : nodes'.isEmpty = nodes.isEmpty := by
  cases h <;> rfl

lemma reference_moves {r r' : ReferenceToken} (hbook : r'.book = r.book) (hsheet : r'.sheet = r.sheet) {range range' : Range}
    (h : Range.ofArea? r.area = some range) (h' : Range.ofArea? r'.area = some range') (hmove : move range = some range')
    (hc : (reference b r span).Clean) : (reference b r' span').outline some = (reference b r span).outline move := by
  rw [reference, reference, h, h', hbook, hsheet]
  rw [reference, h] at hc
  cases hs : r.sheet with
  | none => simp only [outline, hmove]
  | some sheet =>
    rw [hs] at hc
    dsimp only at hc ⊢
    split at hc
    · exact absurd hc not_clean_invalid
    · split at hc
      · simp only [*, outline]
      · exact absurd hc not_clean_invalid

lemma reference_fallen {r : ReferenceToken} {range : Range} (h : Range.ofArea? r.area = some range) (hmove : move range = none)
    (hc : (reference b r span).Clean) : (reference b r span).outline move = .literal ⟨0, 0⟩ (.error .ref) := by
  rw [reference, h] at hc ⊢
  cases hs : r.sheet with
  | none => simp only [outline, hmove]
  | some sheet =>
    rw [hs] at hc
    dsimp only at hc ⊢
    split at hc
    · exact absurd hc not_clean_invalid
    · split at hc
      · simp only [*, outline]
      · exact absurd hc not_clean_invalid

lemma map_outline {ns ns' : List Node} (h : Forall₂ (fun n n' => n'.outline some = n.outline move) ns ns') :
    ns'.map (outline some) = ns.map (outline move) := by
  induction h with
  | nil => rfl
  | cons hn _ ih => rw [List.map_cons, List.map_cons, hn, ih]

lemma map_outline_rows {rows rows' : List (List Node)}
    (h : Forall₂ (Forall₂ fun n n' => n'.outline some = n.outline move) rows rows') :
    (rows'.map fun row => row.map (outline some)) = rows.map fun row => row.map (outline move) := by
  induction h with
  | nil => rfl
  | cons hrow _ ih => rw [List.map_cons, List.map_cons, map_outline hrow, ih]

section Inner

variable (hi : Carries move inner)

include hi

lemma sequence_moves (h : Forall₂ (TokenTree.Moves move) nodes nodes') (hc : (sequence inner nodes span).Clean) :
    (sequence inner nodes' span').outline some = (sequence inner nodes span).outline move :=
  sequence_parallel (fun n n' => n'.outline some = n.outline move) (Forall₂ (TokenTree.Moves move))
    List.forall₂_nil_left_iff.1 (hi 0 span.stop span'.stop nodes nodes' h) hc

lemma parallel_moves : Parallel inner inner (Forall₂ (TokenTree.Moves move)) (fun _ _ => True)
    (fun n n' => n'.outline some = n.outline move) where
  isEmpty := isEmpty_moves
  arguments hl _ := (split_moves isArgumentSeparator_moves hl).imp fun _ _ hpart => ⟨hpart, trivial⟩
  columns hl _ := (split_moves isColumnSeparator_moves hl).imp fun _ _ hpart => ⟨hpart, trivial⟩
  rows hl _ := (split_moves isRowSeparator_moves hl).imp fun _ _ hpart => ⟨hpart, trivial⟩
  sequence hl _ hc := sequence_moves hi hl hc
  missingNode _ := rfl
  callNode _ hargs := by rw [outline, outline, outlineAll_eq, outlineAll_eq, map_outline hargs]
  arrayNode _ hitems := by
    rw [outline, outline, outlineRows_eq, outlineRows_eq, map_outline_rows hitems]
  unionNode _ hitems := by rw [outline, outline, outlineAll_eq, outlineAll_eq, map_outline hitems]

lemma operand_moves (stop' : Nat) (h : Forall₂ (TokenTree.Moves move) nodes nodes') (hc : (operand b inner stop nodes).1.Clean) :
    (operand b inner stop' nodes').1.outline some = (operand b inner stop nodes).1.outline move ∧
      Forall₂ (TokenTree.Moves move) (operand b inner stop nodes).2 (operand b inner stop' nodes').2 := by
  cases h with
  | nil => exact absurd hc not_clean_invalid
  | cons hn hrest =>
    cases hn with
    | group hchildren => exact ⟨(parallel_moves hi).group hchildren trivial hc, hrest⟩
    | malformed => exact absurd hc not_clean_invalid
    | @token t _ _ _ ht =>
      cases ht with
      | same hne =>
        cases t with
        | operator o =>
          cases o with
          | minus =>
            obtain ⟨hnode, hrest⟩ := hi UnaryOp.negate.precedence stop stop' _ _ hrest (clean_unary.1 hc)
            exact ⟨congrArg (unary ⟨0, 0⟩ .negate) hnode, hrest⟩
          | plus => exact hi UnaryOp.negate.precedence stop stop' _ _ hrest hc
          | _ => exact absurd hc not_clean_invalid
        | function f =>
          cases hrest with
          | nil => exact absurd hc not_clean_invalid
          | cons hgroup hrest =>
            cases hgroup with
            | @group kind _ _ _ _ _ hchildren =>
              cases kind with
              | paren => exact ⟨(parallel_moves hi).call hchildren trivial trivial hc, hrest⟩
              | brace | bracket => exact absurd hc not_clean_invalid
            | token | malformed => exact absurd hc not_clean_invalid
        | reference r => exact absurd rfl (hne r)
        | argumentSeparator | columnSeparator | rowSeparator => exact absurd hc not_clean_invalid
        | number | text | boolean | error | name => exact ⟨rfl, hrest⟩
      | reference hbook hsheet hr hr' hmove => exact ⟨reference_moves hbook hsheet hr hr' hmove hc, hrest⟩
      | fallen hr hmove => exact ⟨(reference_fallen hr hmove hc).symm, hrest⟩

lemma climbing_moves : Climbing inner inner (Forall₂ (TokenTree.Moves move)) (fun _ => Forall₂ (TokenTree.Moves move))
    (fun _ _ => True) (fun n n' => n'.outline some = n.outline move) where
  heads hrest := by
    cases hrest with
    | nil => exact .other nofun nofun
    | cons hn hrest =>
      cases hn with
      | group | malformed => exact .other nofun nofun
      | @token t _ _ _ ht =>
        cases ht with
        | reference | fallen => exact .other nofun nofun
        | same =>
          cases t with
          | operator o => exact .operator trivial hrest
          | _ => exact .other nofun nofun
  percent hrest := hrest
  right stop stop' _ hrest hc := hi _ stop stop' _ _ hrest hc
  unaryNode _ hn := congrArg (unary ⟨0, 0⟩ .percent) hn
  binaryNode hn hm := congrArg₂ (binary ⟨0, 0⟩ _) hn hm

end Inner

lemma carries_expression (nesting : Nat) : Carries move (expression b nesting) := by
  induction nesting with
  | zero => exact fun _ _ _ _ _ _ hc => absurd hc not_clean_invalid
  | succ nesting ih =>
    intro precedence stop stop' nodes nodes' h hc
    obtain ⟨hleft, hrest⟩ := operand_moves (b := b) ih stop' h (clean_of_climb hc)
    exact (climbing_moves ih).climb (shrinks_expression nesting) (shrinks_expression nesting) hrest (Nat.le_refl _)
      (Nat.le_refl _) hleft hc

theorem outline_ofTokens (h : Forall₂ (TokenTree.Moves move) nodes nodes') (hc : (Node.ofTokens b nodes).Clean) :
    (Node.ofTokens b nodes').outline some = (Node.ofTokens b nodes).outline move := by
  obtain ⟨hclean, hdepth⟩ := eq_of_clean_check hc
  have hroot : (unchecked b nodes').outline some = (unchecked b nodes).outline move :=
    sequence_moves (carries_expression maxNesting) h hclean
  have hclean' : (unchecked b nodes').Clean := by
    have hmoved : ((unchecked b nodes).outline move).Clean := (clean_outline _).2 hclean
    rw [← hroot] at hmoved
    exact (clean_outline _).1 hmoved
  have hdepth' : (unchecked b nodes').depth = (unchecked b nodes).depth :=
    (depth_outline _).symm.trans ((congrArg depth hroot).trans (depth_outline _))
  rw [Node.ofTokens, Node.ofTokens, check_of_clean hclean hdepth, check_of_clean hclean' (hdepth' ▸ hdepth)]
  exact hroot

end Parse

/-! Pieces. -/

inductive PieceKind.Moves (move : Range → Option Range) : PieceKind → PieceKind → Prop
  | blank : Moves move .blank .blank
  | token {t t' : Token} (h : t.Moves move t') : Moves move (.token t) (.token t')
  | malformed {m : Malformation} : Moves move (.malformed m) (.malformed m)
  | opening {g : GroupKind} : Moves move (.opening g) (.opening g)
  | closing : Moves move .closing .closing

lemma PieceKind.Moves.same {move : Range → Option Range} {k : PieceKind} (h : ∀ r, k ≠ .token (.reference r)) : k.Moves move k := by
  cases k with
  | blank => exact .blank
  | token t => exact .token (.same fun r hr => h r (by rw [hr]))
  | malformed m => exact .malformed
  | opening g => exact .opening
  | closing => exact .closing

namespace TokenTree

variable {move : Range → Option Range} {opened opened' : List OpenGroup} {level level' : List TokenTree}
  {pieces pieces' : List Piece} {pos pos' : Nat}

/-- Open brackets after nodes that move. -/
structure OpenGroup.Moves (move : Range → Option Range) (g g' : OpenGroup) : Prop where
  kind : g'.kind = g.kind
  before : Forall₂ (TokenTree.Moves move) g.before g'.before

lemma closeAll_moves (ho : Forall₂ (OpenGroup.Moves move) opened opened') (hl : Forall₂ (TokenTree.Moves move) level level') :
    Forall₂ (TokenTree.Moves move) (closeAll pos opened level) (closeAll pos' opened' level') := by
  induction ho generalizing level level' with
  | nil => exact List.rel_reverse hl
  | cons hg _ ih =>
    rw [closeAll, closeAll, hg.kind]
    exact ih (.cons (.group (List.rel_reverse hl)) hg.before)

lemma nest_moves (hp : Forall₂ (fun p p' : Piece => p.kind.Moves move p'.kind) pieces pieces')
    (ho : Forall₂ (OpenGroup.Moves move) opened opened') (hl : Forall₂ (TokenTree.Moves move) level level') :
    Forall₂ (TokenTree.Moves move) (nest opened level pos pieces) (nest opened' level' pos' pieces') := by
  induction hp generalizing opened opened' level level' pos pos' with
  | nil =>
    rw [nest, nest]
    exact closeAll_moves ho hl
  | @cons p p' _ _ hkind _ ih =>
    obtain ⟨k, chars⟩ := p
    obtain ⟨k', chars'⟩ := p'
    cases hkind with
    | blank => exact ih ho hl
    | token ht => exact ih ho (.cons (.token ht) hl)
    | malformed => exact ih ho (.cons .malformed hl)
    | opening => exact ih (.cons ⟨rfl, hl⟩ ho) .nil
    | closing =>
      cases ho with
      | nil => exact ih .nil hl
      | @cons g g' _ _ hg ho =>
        obtain ⟨kind, start, before⟩ := g
        obtain ⟨kind', start', before'⟩ := g'
        obtain ⟨hkind, hbefore⟩ := hg
        obtain rfl : kind' = kind := hkind
        exact ih ho (.cons (.group (List.rel_reverse hl)) hbefore)

end TokenTree

end Spreadsheet.Formula
