import Mathlib.Data.List.Basic
import Mathlib.Order.Nat
import Mathlib.Tactic.Lemma
import Spreadsheet.Proofs.Formula.Parse

/-! The calls of a parsed formula start one behind the other in its text. -/

namespace Spreadsheet.Formula

/-- Things that come one after the other, where `P` says where one begins and ends at most. -/
inductive InTurn {α : Type} (P : Nat → α → Nat → Prop) : Nat → List α → Nat → Prop
  | nil {lo hi : Nat} (h : lo ≤ hi) : InTurn P lo [] hi
  | cons {lo mid hi : Nat} {a : α} {l : List α} (h : P lo a mid) (hl : InTurn P mid l hi) : InTurn P lo (a :: l) hi

namespace InTurn

variable {α β : Type} {P : Nat → α → Nat → Prop} {Q : Nat → β → Nat → Prop} {lo lo' mid hi hi' : Nat} {l l' : List α}

lemma le (hP : ∀ lo a hi, P lo a hi → lo ≤ hi) (h : InTurn P lo l hi) : lo ≤ hi := by
  induction h with
  | nil h => exact h
  | cons h _ ih => exact (hP _ _ _ h).trans ih

lemma mono_right (h : InTurn P lo l hi) (hh : hi ≤ hi') : InTurn P lo l hi' := by
  induction h with
  | nil h => exact .nil (h.trans hh)
  | cons h _ ih => exact .cons h (ih hh)

lemma mono_left (hP : ∀ lo lo' a hi, lo' ≤ lo → P lo a hi → P lo' a hi) (h : InTurn P lo l hi) (hh : lo' ≤ lo) :
    InTurn P lo' l hi := by
  cases h with
  | nil h => exact .nil (hh.trans h)
  | cons h hl => exact .cons (hP _ _ _ _ hh h) hl

lemma append (hP : ∀ lo lo' a hi, lo' ≤ lo → P lo a hi → P lo' a hi) (h : InTurn P lo l mid) (h' : InTurn P mid l' hi) :
    InTurn P lo (l ++ l') hi := by
  induction h with
  | nil h => exact h'.mono_left hP h
  | cons h _ ih => exact .cons h (ih h')

lemma exists_split (h : InTurn P lo (l ++ l') hi) : ∃ mid, InTurn P lo l mid ∧ InTurn P mid l' hi := by
  induction l generalizing lo with
  | nil => exact ⟨lo, .nil (Nat.le_refl lo), h⟩
  | cons a l ih =>
    cases h with
    | cons ha hl =>
      obtain ⟨mid, hl, hl'⟩ := ih hl
      exact ⟨mid, .cons ha hl, hl'⟩

lemma map {f : α → β} (hf : ∀ lo a hi, P lo a hi → Q lo (f a) hi) (h : InTurn P lo l hi) :
    InTurn Q lo (l.map f) hi := by
  induction h with
  | nil h => exact .nil h
  | cons h _ ih => exact .cons (hf _ _ _ h) ih

end InTurn

/-- Positions between two others, in order. -/
structure Rising (lo hi : Nat) (l : List Nat) : Prop where
  le : lo ≤ hi
  order : l.Pairwise (· < ·)
  bounds : ∀ x ∈ l, lo ≤ x ∧ x < hi

namespace Rising

variable {lo lo' mid hi hi' x : Nat} {l l' : List Nat}

lemma nil (h : lo ≤ hi) : Rising lo hi [] := ⟨h, .nil, fun _ hx => nomatch hx⟩

lemma mono (h : Rising lo hi l) (hl : lo' ≤ lo) (hh : hi ≤ hi') : Rising lo' hi' l :=
  ⟨hl.trans (h.le.trans hh), h.order, fun x hx => ⟨hl.trans (h.bounds x hx).1, (h.bounds x hx).2.trans_le hh⟩⟩

lemma append (h : Rising lo mid l) (h' : Rising mid hi l') : Rising lo hi (l ++ l') := by
  refine ⟨h.le.trans h'.le, List.pairwise_append.2 ⟨h.order, h'.order, fun x hx y hy => ?_⟩, fun x hx => ?_⟩
  · exact (h.bounds x hx).2.trans_le (h'.bounds y hy).1
  · rcases List.mem_append.1 hx with hx | hx
    · exact ⟨(h.bounds x hx).1, (h.bounds x hx).2.trans_le h'.le⟩
    · exact ⟨h.le.trans (h'.bounds x hx).1, (h'.bounds x hx).2⟩

lemma cons (hx : lo ≤ x) (h : Rising (x + 1) hi l) : Rising lo hi (x :: l) := by
  have hone : Rising lo (x + 1) [x] :=
    ⟨hx.trans (Nat.le_succ x), List.pairwise_singleton _ x, by simpa using hx⟩
  exact hone.append h

end Rising

namespace Node

def isCall : Node → Bool
  | call _ _ _ => true
  | _ => false

def startsOfCalls (ns : List Node) : List Nat := (ns.filter isCall).map (·.span.start)

/-- Where calls start in the text. -/
def callStarts (n : Node) : List Nat := startsOfCalls n.nodes

variable {s : Span} {lo hi : Nat}

lemma startsOfCalls_append (ns ms : List Node) : startsOfCalls (ns ++ ms) = startsOfCalls ns ++ startsOfCalls ms := by
  simp [startsOfCalls]

@[simp] lemma callStarts_unary {op : UnaryOp} {n : Node} : (unary s op n).callStarts = n.callStarts := by
  simp [callStarts, startsOfCalls, nodes, isCall]

@[simp] lemma callStarts_binary {op : BinaryOp} {l r : Node} :
    (binary s op l r).callStarts = l.callStarts ++ r.callStarts := by
  simp [callStarts, startsOfCalls, nodes, isCall]

@[simp] lemma callStarts_call {f : String} {args : List Node} :
    (call s f args).callStarts = s.start :: startsOfCalls (nodesOfAll args) := by
  rw [callStarts, nodes]
  rfl

@[simp] lemma callStarts_array {rows : List (List Node)} :
    (array s rows).callStarts = startsOfCalls (nodesOfRows rows) := by
  simp [callStarts, startsOfCalls, nodes, isCall]

@[simp] lemma callStarts_union {items : List Node} : (union s items).callStarts = startsOfCalls (nodesOfAll items) := by
  simp [callStarts, startsOfCalls, nodes, isCall]

@[simp] lemma callStarts_literal {l : Literal} : (literal s l).callStarts = [] := by
  simp [callStarts, startsOfCalls, nodes, isCall]

@[simp] lemma callStarts_reference {book sheet : Option String} {r : Range} :
    (reference s book sheet r).callStarts = [] := by
  simp [callStarts, startsOfCalls, nodes, isCall]

@[simp] lemma callStarts_name {x : String} : (name s x).callStarts = [] := by
  simp [callStarts, startsOfCalls, nodes, isCall]

@[simp] lemma callStarts_missing : (missing s).callStarts = [] := by
  simp [callStarts, startsOfCalls, nodes, isCall]

@[simp] lemma callStarts_invalid {p : Problem} : (invalid s p).callStarts = [] := by
  simp [callStarts, startsOfCalls, nodes, isCall]

/-- The calls in the tree start between two positions, in order. -/
def Spread (lo : Nat) (n : Node) (hi : Nat) : Prop := Rising lo hi n.callStarts

lemma spread_invalid {p : Problem} (h : lo ≤ hi) : Spread lo (invalid s p) hi := by
  rw [Spread, callStarts_invalid]
  exact .nil h

lemma rising_nodesOfAll {ns : List Node} (h : InTurn Spread lo ns hi) : Rising lo hi (startsOfCalls (nodesOfAll ns)) := by
  induction h with
  | nil h => exact .nil h
  | cons h _ ih =>
    rw [nodesOfAll, startsOfCalls_append]
    exact Rising.append h ih

lemma rising_nodesOfRows {rows : List (List Node)} (h : InTurn (InTurn Spread) lo rows hi) :
    Rising lo hi (startsOfCalls (nodesOfRows rows)) := by
  induction h with
  | nil h => exact .nil h
  | cons h _ ih =>
    rw [nodesOfRows, startsOfCalls_append]
    exact (rising_nodesOfAll h).append ih

end Node

/-- A tree of tokens within its span, with the positions before it that are still free. -/
inductive TokenTree.Lies : Nat → TokenTree → Nat → Prop
  | token {lo : Nat} {t : Token} {s : Span} (h : lo ≤ s.start) (hs : s.start < s.stop) : Lies lo (.token t s) s.stop
  | malformed {lo : Nat} {m : Malformation} {s : Span} (h : lo ≤ s.start) (hs : s.start ≤ s.stop) :
      Lies lo (.malformed m s) s.stop
  | group {lo : Nat} {kind : GroupKind} {children : List TokenTree} {s : Span} {closed : Bool} (h : lo ≤ s.start)
      (hs : s.start < s.stop) (hc : InTurn Lies (s.start + 1) children s.stop) :
      Lies lo (.group kind children s closed) s.stop

namespace TokenTree

variable {lo lo' hi : Nat} {n : TokenTree} {nodes : List TokenTree}

lemma Lies.le (lo : Nat) (n : TokenTree) (hi : Nat) (h : Lies lo n hi) : lo ≤ hi := by
  cases h with
  | token h hs => exact h.trans hs.le
  | malformed h hs => exact h.trans hs
  | group h hs => exact h.trans hs.le

lemma Lies.mono (lo lo' : Nat) (n : TokenTree) (hi : Nat) (hh : lo' ≤ lo) (h : Lies lo n hi) : Lies lo' n hi := by
  cases h with
  | token h hs => exact .token (hh.trans h) hs
  | malformed h hs => exact .malformed (hh.trans h) hs
  | group h hs hc => exact .group (hh.trans h) hs hc

end TokenTree

namespace Parse

open Node TokenTree

variable {b : Binder} {inner : ExprParser} {lo mid hi : Nat} {nodes : List TokenTree} {span : Span}

/-- A parser takes calls off the front, and leaves over what lies behind them. -/
def Tidy (inner : ExprParser) : Prop := ∀ precedence stop nodes lo hi, InTurn Lies lo nodes hi →
  ∃ mid, Spread lo (inner precedence stop nodes).1 mid ∧ InTurn Lies mid (inner precedence stop nodes).2 hi

/-- Stretches of nodes that come one after the other. -/
abbrev Stretch (lo : Nat) (part : List TokenTree × Span) (hi : Nat) : Prop := InTurn Lies lo part.1 hi

lemma stretch_splitFrom {isSeparator : Token → Bool} {stop start : Nat} {stretch : List TokenTree}
    (h : InTurn Lies lo (stretch.reverse ++ nodes) hi) :
    InTurn Stretch lo (splitFrom isSeparator stop start stretch nodes) hi := by
  fun_induction splitFrom isSeparator stop start stretch nodes generalizing lo with
  | case1 => exact .cons (by simpa using h) (.nil (Nat.le_refl hi))
  | case2 start stretch t s ns _ ih =>
    obtain ⟨mid, hstretch, hrest⟩ := h.exists_split
    cases hrest with
    | cons ht hrest => exact .cons hstretch (ih (hrest.mono_left Lies.mono (Lies.le _ _ _ ht)))
  | case3 start stretch t s ns _ ih => exact ih (by simpa using h)
  | case4 start stretch n ns _ ih => exact ih (by simpa using h)

lemma stretch_split (isSeparator : Token → Bool) (outer : Span) (h : InTurn Lies lo nodes hi) :
    InTurn Stretch lo (split isSeparator outer nodes) hi := stretch_splitFrom h

lemma spread_reference (r : ReferenceToken) (s : Span) (h : lo ≤ hi) : Spread lo (reference b r s) hi := by
  have hempty : (reference b r s).callStarts = [] := by
    unfold reference
    split
    · simp
    · simp
    · dsimp only
      split
      · simp
      · split <;> simp
  rw [Spread, hempty]
  exact .nil h

section Inner

variable (htidy : Tidy inner)

include htidy

lemma spread_sequence (h : InTurn Lies lo nodes hi) : Spread lo (sequence inner nodes span) hi := by
  obtain ⟨mid, hspread, hrest⟩ := htidy 0 span.stop nodes lo hi h
  unfold sequence
  split
  · rename_i hx
    rw [hx] at hspread hrest
    exact hspread.mono (Nat.le_refl lo) (hrest.le Lies.le)
  · exact spread_invalid (h.le Lies.le)

lemma spread_stretches {empty : Span → Node} (hempty : ∀ s, (empty s).callStarts = [])
    {parts : List (List TokenTree × Span)} (h : InTurn Stretch lo parts hi) :
    InTurn Spread lo (stretches inner empty parts) hi := by
  refine h.map ?_
  rintro lo ⟨nodes, span⟩ hi hpart
  dsimp only
  split
  · rw [Spread, hempty]
    exact .nil (hpart.le Lies.le)
  · exact spread_sequence htidy hpart

lemma spread_array {children : List TokenTree} (h : InTurn Lies lo children hi) :
    Spread lo (array inner children span) hi := by
  unfold array
  dsimp only
  split
  · exact spread_invalid (h.le Lies.le)
  · split
    · exact spread_invalid (h.le Lies.le)
    · have hrows : InTurn (InTurn Stretch) lo ((split isRowSeparator span children).map fun part =>
          split isColumnSeparator part.2 part.1) hi :=
        (stretch_split _ _ h).map fun _ _ _ hpart => stretch_split _ _ hpart
      rw [Spread, callStarts_array]
      exact rising_nodesOfRows (hrows.map fun _ _ _ hrow => spread_stretches htidy (fun _ => callStarts_missing) hrow)

lemma spread_parentheses {children : List TokenTree} (h : InTurn Lies lo children hi) :
    Spread lo (parentheses inner children span) hi := by
  have hparts := stretch_split isArgumentSeparator span h
  unfold parentheses
  split
  · rename_i hsplit
    rw [hsplit] at hparts
    split
    · exact spread_invalid (h.le Lies.le)
    · cases hparts with
      | cons hpart hrest =>
        exact (spread_sequence htidy hpart).mono (Nat.le_refl lo) (hrest.le fun _ _ _ => InTurn.le Lies.le)
  · rw [Spread, callStarts_union]
    exact rising_nodesOfAll (spread_stretches htidy (fun _ => callStarts_invalid) hparts)

lemma spread_group {kind : GroupKind} {children : List TokenTree} {closed : Bool} (h : InTurn Lies lo children hi) :
    Spread lo (group inner kind children span closed) hi := by
  have hle := h.le Lies.le
  unfold group
  split
  · exact spread_invalid hle
  · cases kind with
    | paren => exact spread_parentheses htidy h
    | brace => exact spread_array htidy h
    | bracket => exact spread_invalid hle

lemma spread_call {f : String} {children : List TokenTree} {nameSpan : Span} {closed : Bool}
    (hname : lo ≤ nameSpan.start) (hspan : nameSpan.start < span.start) (h : InTurn Lies (span.start + 1) children hi) :
    Spread lo (call inner f children nameSpan span closed) hi := by
  have hle := h.le Lies.le
  have hstart : (nameSpan.to span).start = nameSpan.start := Nat.min_eq_left hspan.le
  have hargs : ∀ ns, InTurn Spread (span.start + 1) ns hi → Spread lo (.call (nameSpan.to span) f ns) hi := by
    intro ns hns
    rw [Spread, callStarts_call, hstart]
    exact ((rising_nodesOfAll hns).mono (by omega) (Nat.le_refl hi)).cons hname
  unfold call
  dsimp only
  split
  · exact spread_invalid (by omega)
  · split
    · exact hargs [] (.nil hle)
    · exact hargs _ (spread_stretches htidy (fun _ => callStarts_missing) (stretch_split _ _ h))

lemma tidy_operand (stop : Nat) (h : InTurn Lies lo nodes hi) :
    ∃ mid, Spread lo (operand b inner stop nodes).1 mid ∧ InTurn Lies mid (operand b inner stop nodes).2 hi := by
  have hleaf : ∀ n : Node, n.callStarts = [] → ∀ {lo mid : Nat}, lo ≤ mid → Spread lo n mid := by
    intro n hn lo mid hle
    rw [Spread, hn]
    exact .nil hle
  -- an operand is read from the nodes at the front, so its calls start in order before those of the rest
  unfold operand
  split
  · exact ⟨hi, spread_invalid (h.le Lies.le), .nil (Nat.le_refl hi)⟩
  · cases h with
    | cons hn hrest =>
      cases hn with
      | group h hs hc => exact ⟨_, (spread_group htidy hc).mono (by omega) (Nat.le_refl _), hrest⟩
  · cases h with
    | cons hn hrest => exact ⟨_, spread_invalid (Lies.le _ _ _ hn), hrest⟩
  · rename_i t span rest
    cases h with
    | cons hn hrest =>
      have hle := Lies.le _ _ _ hn
      cases hn with
      | token hlo hs =>
        split
        · obtain ⟨mid, hspread, hrest⟩ := htidy UnaryOp.negate.precedence stop rest span.stop hi hrest
          refine ⟨mid, ?_, hrest⟩
          rw [Spread, callStarts_unary]
          exact hspread.mono hle (Nat.le_refl mid)
        · obtain ⟨mid, hspread, hrest⟩ := htidy UnaryOp.negate.precedence stop rest span.stop hi hrest
          exact ⟨mid, hspread.mono hle (Nat.le_refl mid), hrest⟩
        · exact ⟨_, hleaf _ callStarts_literal hle, hrest⟩
        · exact ⟨_, hleaf _ callStarts_literal hle, hrest⟩
        · exact ⟨_, hleaf _ callStarts_literal hle, hrest⟩
        · exact ⟨_, hleaf _ callStarts_literal hle, hrest⟩
        · exact ⟨_, spread_reference _ _ hle, hrest⟩
        · exact ⟨_, hleaf _ callStarts_name hle, hrest⟩
        · split
          · cases hrest with
            | cons hgroup hrest =>
              cases hgroup with
              | group hstart _ hc => exact ⟨_, spread_call htidy hlo (by omega) hc, hrest⟩
          · exact ⟨_, spread_invalid hle, hrest⟩
        all_goals exact ⟨_, spread_invalid hle, hrest⟩

lemma tidy_climb {precedence stop fuel : Nat} {left : Node} {rest : List TokenTree} (hleft : Spread lo left mid)
    (hrest : InTurn Lies mid rest hi) :
    ∃ mid, Spread lo (climb inner precedence stop fuel left rest).1 mid ∧
      InTurn Lies mid (climb inner precedence stop fuel left rest).2 hi := by
  fun_induction climb inner precedence stop fuel left rest generalizing mid with
  | case1 => exact ⟨mid, hleft, hrest⟩
  | case2 => exact ⟨mid, hleft, hrest⟩
  | case3 fuel left o span rest _ _ ih =>
    cases hrest with
    | cons hn hrest =>
      refine ih ?_ (hrest.mono_left Lies.mono (Lies.le _ _ _ hn))
      rwa [Spread, callStarts_unary]
  | case4 => exact ⟨mid, hleft, hrest⟩
  | case5 fuel left o span rest op _ _ right rest' hx ih =>
    cases hrest with
    | cons hn hrest =>
      have hfront := hrest.mono_left Lies.mono (Lies.le _ _ _ hn)
      obtain ⟨mid', hright, hback⟩ := htidy (op.precedence + 1) stop rest mid hi hfront
      rw [hx] at hright hback
      refine ih ?_ hback
      rw [Spread, callStarts_binary]
      exact Rising.append hleft hright
  | case6 => exact ⟨mid, hleft, hrest⟩

end Inner

lemma tidy_expression (nesting : Nat) : Tidy (expression b nesting) := by
  induction nesting with
  | zero => exact fun _ _ _ _ hi h => ⟨hi, spread_invalid (h.le Lies.le), .nil (Nat.le_refl hi)⟩
  | succ nesting ih =>
    intro precedence stop nodes lo hi h
    obtain ⟨mid, hleft, hrest⟩ := tidy_operand (b := b) ih stop h
    exact tidy_climb ih hleft hrest

lemma spread_check {n : Node} (h : Spread lo n hi) (whole : Span) : Spread lo (check whole n) hi := by
  unfold check
  split
  · exact spread_invalid h.le
  · split
    · split
      · exact h
      · exact spread_invalid h.le
    · exact h

end Parse

namespace TokenTree

/-! Trees of tokens lie in the order of the text. -/

variable {opened : List OpenGroup} {level : List TokenTree} {pos next stop : Nat} {g : OpenGroup} {n : TokenTree}

/-- The nodes in the open groups lie before a position. -/
def Opened : List OpenGroup → List TokenTree → Nat → Prop
  | [], level, pos => InTurn Lies 0 level.reverse pos
  | g :: opened, level, pos =>
    g.start < pos ∧ InTurn Lies (g.start + 1) level.reverse pos ∧ Opened opened g.before g.start

lemma Opened.advance (h : Opened opened level pos) (hn : pos ≤ next) : Opened opened level next := by
  cases opened with
  | nil => exact InTurn.mono_right h hn
  | cons g opened => exact ⟨h.1.trans_le hn, h.2.1.mono_right hn, h.2.2⟩

lemma Opened.push (h : Opened opened level pos) (hn : Lies pos n next) : Opened opened (n :: level) next := by
  have hone : InTurn Lies pos [n] next := .cons hn (.nil (Nat.le_refl next))
  cases opened with
  | nil =>
    rw [Opened, List.reverse_cons]
    exact InTurn.append Lies.mono h hone
  | cons g opened =>
    rw [Opened, List.reverse_cons]
    exact ⟨h.1.trans_le (Lies.le _ _ _ hn), h.2.1.append Lies.mono hone, h.2.2⟩

lemma Opened.close (h : Opened (g :: opened) level pos) (hn : pos ≤ next) (closed : Bool) :
    Opened opened (.group g.kind level.reverse ⟨g.start, next⟩ closed :: g.before) next :=
  h.2.2.push (.group (Nat.le_refl _) (h.1.trans_le hn) (h.2.1.mono_right hn))

lemma Opened.closeAll (h : Opened opened level pos) : InTurn Lies 0 (closeAll pos opened level) pos := by
  induction opened generalizing level with
  | nil => exact h
  | cons g opened ih => exact ih (h.close (Nat.le_refl pos) false)

lemma Opened.nest {pieces : List Piece} (h : Opened opened level pos)
    (hp : ∀ p ∈ pieces, 0 < Text.byteLength p.chars) : ∃ hi, InTurn Lies 0 (nest opened level pos pieces) hi := by
  fun_induction TokenTree.nest opened level pos pieces with
  | case1 => exact ⟨_, h.closeAll⟩
  | case2 _ _ _ _ _ _ _ ih =>
    obtain ⟨hlength, hp⟩ := List.forall_mem_cons.1 hp
    exact ih (h.advance (Nat.le_add_right ..)) hp
  | case3 _ _ _ _ _ _ _ _ ih =>
    obtain ⟨hlength, hp⟩ := List.forall_mem_cons.1 hp
    exact ih (h.push (.token (Nat.le_refl _) (Nat.lt_add_of_pos_right hlength))) hp
  | case4 _ _ _ _ _ _ _ _ ih =>
    obtain ⟨hlength, hp⟩ := List.forall_mem_cons.1 hp
    exact ih (h.push (.malformed (Nat.le_refl _) (Nat.le_add_right ..))) hp
  | case5 _ _ _ _ _ _ _ _ ih =>
    obtain ⟨hlength, hp⟩ := List.forall_mem_cons.1 hp
    exact ih ⟨Nat.lt_add_of_pos_right hlength, .nil (Nat.add_le_add_left hlength _), h⟩ hp
  | case6 _ _ _ _ _ _ _ _ ih =>
    obtain ⟨hlength, hp⟩ := List.forall_mem_cons.1 hp
    exact ih (h.close (Nat.le_add_right ..) true) hp
  | case7 _ _ _ _ _ _ ih =>
    obtain ⟨hlength, hp⟩ := List.forall_mem_cons.1 hp
    exact ih (h.advance (Nat.le_add_right ..)) hp

end TokenTree

lemma Piece.byteLength_pos {o : Separators} {fuel : Nat} {ctx : Context} {cs : List Char} :
    ∀ p ∈ scan o fuel ctx cs, 0 < Text.byteLength p.chars := by
  fun_induction scan o fuel ctx cs with
  | case1 => simp
  | case2 => simp
  | case3 fuel ctx c rest kind n _ ih =>
    refine List.forall_mem_cons.2 ⟨?_, ih⟩
    rw [Text.byteLength]
    exact Nat.add_pos_left (Char.utf8Size_pos c) _

lemma TokenTree.inTurn_ofText (o : Separators) (s : String) : ∃ hi, InTurn Lies 0 (ofText o s) hi := by
  have hstart : ∀ pos, Opened [] [] pos := fun pos => InTurn.nil (Nat.zero_le pos)
  unfold ofText ofChars
  dsimp only
  split
  · exact (hstart _).nest Piece.byteLength_pos
  · exact ((hstart _).push (.malformed (Nat.le_refl _) (Nat.le_refl _))).nest Piece.byteLength_pos

/-- No two calls of a formula start at the same place. -/
theorem Node.callStarts_parse (b : Binder) (s : String) (o : Separators) :
    (Node.parse b s o).callStarts.Pairwise (· < ·) := by
  obtain ⟨hi, h⟩ := TokenTree.inTurn_ofText o s
  exact (Parse.spread_check (Parse.spread_sequence (Parse.tidy_expression maxNesting) h) _).order

end Spreadsheet.Formula
