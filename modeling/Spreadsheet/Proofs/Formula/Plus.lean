import Spreadsheet.Proofs.Formula.Climb

/-! A prefix `+` leaves no trace, except right after `^`: there it takes a `^` that follows into its operand. -/

namespace Spreadsheet.Formula

open List (Forall₂)

namespace Parse

variable {b : Binder} {inner : ExprParser} {precedence more stop n : Nat} {left : Node} {nodes rest : List TokenTree} {s : Span}

/-! Climbing for tighter operators first. -/

lemma climbAll_climb (hs : Shrinks inner) (h : precedence ≤ more) (hmore : more ≤ UnaryOp.percent.precedence) (fuel : Nat) :
    climbAll inner precedence stop (climb inner more stop fuel left rest).1 (climb inner more stop fuel left rest).2 =
      climbAll inner precedence stop left rest := by
  fun_induction climb inner more stop fuel left rest with
  | case1 => rfl
  | case2 => rfl
  | case3 fuel left o span rest ho _ ih =>
    obtain rfl : o = .percent := by cases o <;> first | rfl | cases ho
    rw [ih, climbAll_percent (h.trans hmore)]
  | case4 => rfl
  | case5 fuel left o span rest op ho hop right rest' hx ih =>
    obtain rfl := OperatorSign.eq_sign ho
    rw [ih, climbAll_sign hs (h.trans (Nat.le_of_not_lt hop)) hx]
  | case6 => rfl

lemma expression_of_le (h : precedence ≤ more) (hmore : more ≤ UnaryOp.percent.precedence)
    (hc : (expression b n more stop nodes).1.Clean) : expression b (n + 1) precedence stop nodes =
      climbAll (expression b n) precedence stop (expression b n more stop nodes).1 (expression b n more stop nodes).2 := by
  rw [← extends_expression n more stop nodes hc, expression_succ, expression_succ]
  exact (climbAll_climb (shrinks_expression n) h hmore _).symm

/-- Where operators are wanted that bind no tighter than a sign, a prefix `+` leaves no trace. -/
lemma expression_plus (h : precedence ≤ UnaryOp.negate.precedence)
    (hc : (expression b (n + 1) precedence stop (.token (.operator .plus) s :: rest)).1.Clean) :
    expression b (n + 1) precedence stop (.token (.operator .plus) s :: rest) =
      expression b (n + 1) precedence stop rest := (expression_of_le h (by decide) (clean_of_climb hc)).symm

/-! After `^` only percent signs are wanted. -/

/-- After percent signs comes `^`. -/
def comesToPower : List TokenTree → Bool
  | .token (.operator .percent) _ :: rest => comesToPower rest
  | .token (.operator .power) _ :: _ => true
  | _ => false

/-- The operand at the front stands before `^`, and no sign before it takes the `^` in. -/
def standsBeforePower : List TokenTree → Bool
  | .token (.operator _) _ :: _ => false
  | .token (.function _) _ :: .group .paren _ _ _ :: rest => comesToPower rest
  | _ :: rest => comesToPower rest
  | [] => false

lemma climbAll_negate_eq (h : comesToPower rest = false) :
    climbAll inner UnaryOp.negate.precedence stop left rest = climbAll inner (BinaryOp.power.precedence + 1) stop left rest := by
  fun_induction comesToPower rest generalizing left with
  | case1 s rest ih => rw [climbAll_percent (by decide), climbAll_percent (by decide), ih h]
  | case2 => cases h
  | case3 rest hpercent hpower =>
    cases rest with
    | nil => rfl
    | cons x rest =>
      cases x with
      | token t s =>
        cases t with
        | operator o =>
          cases o with
          | percent => exact absurd rfl (hpercent s rest)
          | power => exact absurd rfl (hpower s rest)
          | _ => rfl
        | _ => rfl
      | _ => rfl

lemma length_climbAll_lt (hs : Shrinks inner) (h : comesToPower rest = true) :
    (climbAll inner UnaryOp.negate.precedence stop left rest).2.length <
      (climbAll inner (BinaryOp.power.precedence + 1) stop left rest).2.length := by
  fun_induction comesToPower rest generalizing left with
  | case1 s rest ih =>
    rw [climbAll_percent (by decide), climbAll_percent (by decide)]
    exact ih h
  | case2 s rest =>
    have hle := hs (BinaryOp.power.precedence + 1) stop rest
    rw [show OperatorSign.power = BinaryOp.power.sign from rfl, climbAll_sign hs (by decide) rfl]
    exact Nat.lt_succ_of_le ((length_climb_le hs _).trans hle)
  | case3 => cases h

lemma comesToPower_climb (hs : Shrinks inner) {fuel : Nat} (hfuel : rest.length ≤ fuel) :
    comesToPower (climb inner UnaryOp.negate.precedence stop fuel left rest).2 = false := by
  fun_induction climb inner UnaryOp.negate.precedence stop fuel left rest with
  | case1 left rest =>
    rw [List.eq_nil_of_length_eq_zero (Nat.le_zero.1 hfuel)]
    rfl
  | case2 _ _ _ _ _ _ hlt => exact absurd hlt (by decide)
  | case3 _ _ _ _ _ _ _ ih => exact ih (Nat.le_of_succ_le_succ hfuel)
  | case4 fuel left o span rest op ho hlt =>
    obtain rfl := OperatorSign.eq_sign ho
    cases op with
    | power => exact absurd hlt (by decide)
    | _ => rfl
  | case5 fuel left o span rest op _ _ right rest' hx ih =>
    have hle := hs (op.precedence + 1) stop rest
    rw [hx] at hle
    exact ih (hle.trans (Nat.le_of_succ_le_succ hfuel))
  | case6 fuel left rest hzero hoperator =>
    cases fuel with
    | zero =>
      rw [List.eq_nil_of_length_eq_zero (Nat.le_zero.1 hfuel)]
      rfl
    | succ fuel =>
      cases rest with
      | nil => rfl
      | cons x rest =>
        cases x with
        | token t s =>
          cases t with
          | operator o => exact absurd rfl (hoperator fuel o s rest rfl)
          | _ => rfl
        | _ => rfl

lemma comesToPower_operand (hc : (operand b (expression b n) stop nodes).1.Clean) :
    comesToPower (operand b (expression b n) stop nodes).2 = standsBeforePower nodes := by
  have hsign : ∀ rest, (expression b n UnaryOp.negate.precedence stop rest).1.Clean →
      comesToPower (expression b n UnaryOp.negate.precedence stop rest).2 = false := by
    intro rest hc
    cases n with
    | zero => exact absurd hc Node.not_clean_invalid
    | succ n => exact comesToPower_climb (shrinks_expression n) (Nat.le_refl _)
  cases nodes with
  | nil => exact absurd hc Node.not_clean_invalid
  | cons x rest =>
    cases x with
    | group => rfl
    | malformed => exact absurd hc Node.not_clean_invalid
    | token t s =>
      cases t with
      | operator o =>
        cases o with
        | minus => exact hsign rest (Node.clean_unary.1 hc)
        | plus => exact hsign rest hc
        | _ => exact absurd hc Node.not_clean_invalid
      | function f =>
        cases rest with
        | nil => exact absurd hc Node.not_clean_invalid
        | cons y rest =>
          cases y with
          | group kind =>
            cases kind with
            | paren => rfl
            | _ => exact absurd hc Node.not_clean_invalid
          | _ => exact absurd hc Node.not_clean_invalid
      | argumentSeparator | columnSeparator | rowSeparator => exact absurd hc Node.not_clean_invalid
      | _ => rfl

lemma expression_power_plus
    (hc : (expression b (n + 1) (BinaryOp.power.precedence + 1) stop (.token (.operator .plus) s :: rest)).1.Clean) :
    expression b (n + 1) (BinaryOp.power.precedence + 1) stop (.token (.operator .plus) s :: rest) =
      expression b (n + 1) UnaryOp.negate.precedence stop rest := by
  have hread : (expression b n UnaryOp.negate.precedence stop rest).1.Clean := clean_of_climb hc
  have hleft : comesToPower (expression b n UnaryOp.negate.precedence stop rest).2 = false := by
    cases n with
    | zero => exact absurd hread Node.not_clean_invalid
    | succ n => exact comesToPower_climb (shrinks_expression n) (Nat.le_refl _)
  rw [expression_of_le (Nat.le_refl _) (by decide) hread, climbAll_negate_eq hleft]
  rfl

/-- After `^` a `+` leaves no trace just in case its operand does not stand before another `^`. -/
theorem expression_power_plus_iff
    (hc : (expression b (n + 1) (BinaryOp.power.precedence + 1) stop (.token (.operator .plus) s :: rest)).1.Clean) :
    expression b (n + 1) (BinaryOp.power.precedence + 1) stop (.token (.operator .plus) s :: rest) =
      expression b (n + 1) (BinaryOp.power.precedence + 1) stop rest ↔ standsBeforePower rest = false := by
  have hread := expression_power_plus hc
  rw [hread] at hc ⊢
  have hoperand : comesToPower (operand b (expression b n) stop rest).2 = standsBeforePower rest :=
    comesToPower_operand (clean_of_climb hc)
  rw [expression_succ, expression_succ, ← hoperand]
  refine ⟨fun heq => ?_, climbAll_negate_eq⟩
  rw [Bool.eq_false_iff]
  intro hpower
  exact (length_climbAll_lt (shrinks_expression n) hpower).ne (by rw [heq])

end Parse

/-! Trees of tokens without some of their prefix signs. -/

/-- What stands before a node among its siblings: a place where an operand begins, the operator `^`, or an operand. -/
inductive Before
  | start
  | power
  | operand
deriving DecidableEq

namespace Before

def next (before : Before) : Token → Before
  | .operator o =>
    if before = operand ∧ o = .percent then operand
    else if before = operand ∧ o = .power then power
    else start
  | .argumentSeparator | .columnSeparator | .rowSeparator => start
  | _ => operand

/-- The operators that are wanted after what stands there. -/
def Allows : Before → Nat → Prop
  | start, precedence => precedence ≤ UnaryOp.negate.precedence
  | power, precedence => precedence = BinaryOp.power.precedence + 1
  | operand, _ => False

end Before

/-- Nodes that go on with an operand before the next separator. -/
def Parse.goesOn : List TokenTree → Bool
  | [] | .token .argumentSeparator _ :: _ | .token .columnSeparator _ :: _ | .token .rowSeparator _ :: _ => false
  | _ :: _ => true

/-- Nodes from which some prefix `+` are left out, at any depth. Right after `^` only those may be left out that stand before no
operand that comes before another `^`. -/
inductive TokenTree.Drops : Before → List TokenTree → List TokenTree → Prop
  | nil {before : Before} : Drops before [] []
  | token {before : Before} {t : Token} {s : Span} {l l' : List TokenTree} (h : Drops (before.next t) l l') :
      Drops before (.token t s :: l) (.token t s :: l')
  | group {before : Before} {kind : GroupKind} {children children' : List TokenTree} {s : Span} {closed : Bool}
      {l l' : List TokenTree} (hchildren : Drops .start children children') (h : Drops .operand l l') :
      Drops before (.group kind children s closed :: l) (.group kind children' s closed :: l')
  | malformed {before : Before} {m : Malformation} {s : Span} {l l' : List TokenTree} (h : Drops .operand l l') :
      Drops before (.malformed m s :: l) (.malformed m s :: l')
  | plus {s : Span} {l l' : List TokenTree} (hl : Parse.goesOn l = true) (h : Drops .start l l') :
      Drops .start (.token (.operator .plus) s :: l) l'
  | powerPlus {s : Span} {l l' : List TokenTree} (hl : Parse.goesOn l = true) (hpower : Parse.standsBeforePower l = false)
      (h : Drops .power l l') : Drops .power (.token (.operator .plus) s :: l) l'

namespace Parse

open TokenTree

variable {b : Binder} {inner : ExprParser} {precedence stop stop' : Nat} {left : Node} {before : Before}
  {nodes nodes' : List TokenTree} {s span span' : Span}

/-- From the nodes of `a*+(+b)` both signs may be left out. -/
example (a b sign times paren : Span) :
    Drops .start [.token (.name "a") a, .token (.operator .multiply) times, .token (.operator .plus) sign,
      .group .paren [.token (.operator .plus) sign, .token (.name "b") b] paren true]
    [.token (.name "a") a, .token (.operator .multiply) times, .group .paren [.token (.name "b") b] paren true] :=
  .token (.token (.plus rfl (.group (.plus rfl (.token .nil)) .nil)))

lemma comesToPower_of_append {l : List TokenTree} (more : List TokenTree) (h : comesToPower (l ++ more) = false) :
    comesToPower l = false := by
  fun_induction comesToPower l with
  | case1 s l ih => exact ih h
  | case2 s l => cases h
  | case3 => rfl

lemma standsBeforePower_of_append {l more : List TokenTree} (h : standsBeforePower (l ++ more) = false) :
    standsBeforePower l = false := by
  cases l with
  | nil => rfl
  | cons x l =>
    cases x with
    | token t s =>
      cases t with
      | operator o => rfl
      | function f =>
        cases l with
        | nil => rfl
        | cons y l =>
          cases y with
          | group kind => cases kind <;> exact comesToPower_of_append more h
          | _ => exact comesToPower_of_append more h
      | _ => exact comesToPower_of_append more h
    | _ => exact comesToPower_of_append more h

def UpTo (isSeparator : Token → Bool) (l nodes : List TokenTree) : Prop :=
  ∃ more, nodes = l ++ more ∧ ∀ n ∈ more.head?, ∃ t s, n = .token t s ∧ isSeparator t = true

lemma UpTo.cons {isSeparator : Token → Bool} {l : List TokenTree} (h : UpTo isSeparator l nodes) (n : TokenTree) :
    UpTo isSeparator (n :: l) (n :: nodes) := by
  obtain ⟨more, rfl, hmore⟩ := h
  exact ⟨more, rfl, hmore⟩

lemma UpTo.goesOn {isSeparator : Token → Bool} (hsep : ∀ t s rest, isSeparator t = true → goesOn (.token t s :: rest) = false)
    {l : List TokenTree} (h : UpTo isSeparator l nodes) (hn : goesOn nodes = true) : goesOn l = true := by
  obtain ⟨more, rfl, hmore⟩ := h
  cases l with
  | nil =>
    cases more with
    | nil => cases hn
    | cons n more =>
      obtain ⟨t, s, rfl, ht⟩ := hmore n rfl
      rw [List.nil_append, hsep t s more ht] at hn
      cases hn
  | cons n l =>
    cases n with
    | token t s => cases t <;> exact hn
    | _ => exact hn

/-- Tokens that separate stretches, after which operands begin. -/
structure Separates (isSeparator : Token → Bool) : Prop where
  next : ∀ t, isSeparator t = true → ∀ before : Before, before.next t = .start
  goesOn : ∀ t s rest, isSeparator t = true → goesOn (.token t s :: rest) = false

lemma splitFrom_drops {isSeparator : Token → Bool} (hsep : Separates isSeparator) {start : Nat}
    {stretch stretch' : List TokenTree} (h : Drops before nodes nodes')
    (hstretch : ∀ l l', UpTo isSeparator l nodes → Drops before l l' → Drops .start (stretch.reverse ++ l) (stretch'.reverse ++ l')) :
    Forall₂ (fun part part' => Drops .start part.1 part'.1 ∧ part.2 = part'.2)
      (splitFrom isSeparator stop start stretch nodes) (splitFrom isSeparator stop start stretch' nodes') := by
  have hplus : isSeparator (.operator .plus) = false := by
    rw [Bool.eq_false_iff]
    intro hplus
    cases hsep.goesOn _ ⟨0, 0⟩ [] hplus
  -- whatever follows up to the next separator may be put after the stretch so far
  induction h generalizing start stretch stretch' with
  | nil =>
    have hlast := hstretch [] [] ⟨[], rfl, by simp⟩ .nil
    rw [List.append_nil, List.append_nil] at hlast
    exact .cons ⟨hlast, rfl⟩ .nil
  | @token before t s l l' h ih =>
    rw [splitFrom, splitFrom]
    split
    · rename_i ht
      have hlast := hstretch [] [] ⟨_, rfl, by rintro n ⟨⟩; exact ⟨t, s, rfl, ht⟩⟩ .nil
      rw [List.append_nil, List.append_nil] at hlast
      refine .cons ⟨hlast, rfl⟩ (ih fun _ _ _ hd => ?_)
      rwa [hsep.next t ht] at hd
    · refine ih fun q q' hq hd => ?_
      simpa using hstretch (.token t s :: q) (.token t s :: q') (hq.cons _) (.token hd)
  | @group before kind children children' s closed l l' hchildren h _ ih =>
    refine ih fun q q' hq hd => ?_
    simpa using hstretch (.group kind children s closed :: q) (.group kind children' s closed :: q') (hq.cons _)
      (.group hchildren hd)
  | @malformed before m s l l' h ih =>
    refine ih fun q q' hq hd => ?_
    simpa using hstretch (.malformed m s :: q) (.malformed m s :: q') (hq.cons _) (.malformed hd)
  | @plus s l l' hl h ih =>
    rw [splitFrom, hplus]
    refine ih fun q q' hq hd => ?_
    simpa using hstretch (.token (.operator .plus) s :: q) q' (hq.cons _) (.plus (hq.goesOn hsep.goesOn hl) hd)
  | @powerPlus s l l' hl hpower h ih =>
    rw [splitFrom, hplus]
    refine ih fun q q' hq hd => ?_
    have hq' : standsBeforePower q = false := by
      obtain ⟨more, rfl, -⟩ := hq
      exact standsBeforePower_of_append hpower
    simpa using hstretch (.token (.operator .plus) s :: q) q' (hq.cons _) (.powerPlus (hq.goesOn hsep.goesOn hl) hq' hd)

lemma split_drops {isSeparator : Token → Bool} (hsep : Separates isSeparator) (h : Drops .start nodes nodes') :
    Forall₂ (fun part part' => Drops .start part.1 part'.1 ∧ part.2 = part'.2) (split isSeparator span nodes)
      (split isSeparator span nodes') := splitFrom_drops hsep h fun _ _ _ hd => by simpa using hd

lemma separates {isSeparator : Token → Bool}
    (h : isSeparator ∈ [isArgumentSeparator, isColumnSeparator, isRowSeparator]) : Separates isSeparator := by
  simp only [List.mem_cons, List.not_mem_nil, or_false] at h
  rcases h with rfl | rfl | rfl <;> constructor <;> rintro (_ | _) <;>
    simp [isArgumentSeparator, isColumnSeparator, isRowSeparator, Before.next, Parse.goesOn]

lemma isEmpty_drops (h : Drops before nodes nodes') : nodes'.isEmpty = nodes.isEmpty := by
  have hgoes : ∀ {l : List TokenTree}, goesOn l = true → l.isEmpty = false := by
    rintro (_ | ⟨n, l⟩) hl
    · cases hl
    · rfl
  induction h with
  | nil | token | group | malformed => rfl
  | plus hl _ ih => rw [ih, hgoes hl, List.isEmpty_cons]
  | powerPlus hl _ _ ih => rw [ih, hgoes hl, List.isEmpty_cons]

/-- What is read without some prefix `+` is what is read with them. -/
def Sheds (inner : ExprParser) : Prop := ∀ (before : Before) (precedence stop stop' : Nat) (nodes nodes' : List TokenTree),
  Drops before nodes nodes' → before.Allows precedence → (inner precedence stop nodes).1.Clean →
    (inner precedence stop nodes).1 = (inner precedence stop' nodes').1 ∧
      Drops .operand (inner precedence stop nodes).2 (inner precedence stop' nodes').2

section Inner

variable (hi : Sheds inner)

include hi

lemma sequence_drops (h : Drops .start nodes nodes') (hc : (sequence inner nodes span).Clean) :
    sequence inner nodes span = sequence inner nodes' span' := by
  apply sequence_parallel Eq (Drops .operand) ?_ ?_ hc
  · intro rest hrest
    cases hrest
    rfl
  · exact hi .start 0 span.stop span'.stop nodes nodes' h (Nat.zero_le _)

lemma parallel_drops : Parallel inner inner (Drops .start) Eq Eq := by
  apply Parallel.ofEq
  · exact isEmpty_drops
  · intro isSeparator hmem l l' s h
    exact split_drops (separates hmem) h
  · intro l l' s h hc
    exact sequence_drops hi h hc

lemma operand_token_drops {t : Token} {l l' : List TokenTree} (hbefore : before ≠ .operand) (h : Drops (before.next t) l l')
    (hc : (operand b inner stop (.token t s :: l)).1.Clean) :
    (operand b inner stop (.token t s :: l)).1 = (operand b inner stop' (.token t s :: l')).1 ∧
      Drops .operand (operand b inner stop (.token t s :: l)).2 (operand b inner stop' (.token t s :: l')).2 := by
  cases t with
  | operator o =>
    have hnext : Drops .start l l' := by simpa [Before.next, hbefore] using h
    cases o with
    | minus =>
      obtain ⟨hnode, hrest⟩ := hi .start UnaryOp.negate.precedence stop stop' l l' hnext (Nat.le_refl _) (Node.clean_unary.1 hc)
      exact ⟨by simp only [operand, hnode], hrest⟩
    | plus => exact hi .start UnaryOp.negate.precedence stop stop' l l' hnext (Nat.le_refl _) hc
    | _ => exact absurd hc Node.not_clean_invalid
  | function f =>
    have hnext : Drops .operand l l' := h
    clear h
    cases hnext with
    | @group _ kind _ _ _ _ _ _ hchildren h =>
      cases kind with
      | paren => exact ⟨(parallel_drops hi).call hchildren rfl rfl hc, h⟩
      | brace | bracket => exact absurd hc Node.not_clean_invalid
    | nil | token | malformed => exact absurd hc Node.not_clean_invalid
  | argumentSeparator | columnSeparator | rowSeparator => exact absurd hc Node.not_clean_invalid
  | number | text | boolean | error | name | reference => exact ⟨rfl, h⟩

lemma climbing_drops : Climbing inner inner (Drops .operand) (fun o => Drops (Before.operand.next (.operator o))) Eq Eq where
  heads hrest := by
    cases hrest with
    | @token _ t _ _ _ h =>
      cases t with
      | operator o => exact .operator rfl h
      | _ => exact .other nofun nofun
    | _ => exact .other nofun nofun
  percent h := h
  right {o op l l'} stop stop' ho h hc := by
    obtain rfl := OperatorSign.eq_sign ho
    have hallows : (Before.operand.next (.operator op.sign)).Allows (op.precedence + 1) := by
      cases op <;> simp [Before.next, Before.Allows, BinaryOp.sign, BinaryOp.precedence, UnaryOp.precedence]
    exact hi _ _ stop stop' l l' h hallows hc
  unaryNode hs hn := by rw [hs, hn]
  binaryNode hn hm := by rw [hn, hm]

end Inner

lemma sheds_expression (b : Binder) (n : Nat) : Sheds (expression b n) := by
  induction n with
  | zero => exact fun _ _ _ _ _ _ _ _ hc => absurd hc Node.not_clean_invalid
  | succ n ih =>
    intro before precedence stop stop' nodes nodes' h hallows hc
    have hclimb : ∀ {left left' : Node} {rest rest' : List TokenTree}, left = left' ∧ Drops .operand rest rest' →
        (climbAll (expression b n) precedence stop left rest).1.Clean →
        (climbAll (expression b n) precedence stop left rest).1 = (climbAll (expression b n) precedence stop' left' rest').1 ∧
          Drops .operand (climbAll (expression b n) precedence stop left rest).2
            (climbAll (expression b n) precedence stop' left' rest').2 := fun hoperand hc =>
      (climbing_drops ih).climb (shrinks_expression n) (shrinks_expression n) hoperand.2 (Nat.le_refl _) (Nat.le_refl _)
        hoperand.1 hc
    -- signs may be left out one after the other, until a node stays that begins the operand
    induction h with
    | nil => exact absurd (clean_of_climb hc) Node.not_clean_invalid
    | @token before t s l l' h =>
      have hbefore : before ≠ .operand := by
        rintro rfl
        exact hallows
      exact hclimb (operand_token_drops ih hbefore h (clean_of_climb hc)) hc
    | group hchildren h =>
      exact hclimb ⟨(parallel_drops ih).group hchildren rfl (clean_of_climb hc), h⟩ hc
    | malformed => exact absurd (clean_of_climb hc) Node.not_clean_invalid
    | plus _ _ hrest =>
      have hsame := expression_plus hallows hc
      rw [hsame] at hc ⊢
      exact hrest hallows hc
    | powerPlus _ hpower _ hrest =>
      obtain rfl : precedence = BinaryOp.power.precedence + 1 := hallows
      have hsame := (expression_power_plus_iff hc).2 hpower
      rw [hsame] at hc ⊢
      exact hrest rfl hc

/-- A formula without a problem is the same without the prefix `+` that leave no trace. -/
theorem ofTokens_of_drops (h : Drops .start nodes nodes') (hc : (Node.ofTokens b nodes).Clean) :
    Node.ofTokens b nodes' = Node.ofTokens b nodes := by
  obtain ⟨hclean, hdepth⟩ := eq_of_clean_check hc
  have hroot : unchecked b nodes' = unchecked b nodes := (sequence_drops (sheds_expression b maxNesting) h hclean).symm
  rw [Node.ofTokens, Node.ofTokens, hroot, check_of_clean hclean hdepth, check_of_clean hclean hdepth]

/-- Behind `^` a sign works like parentheses. -/
example : (Node.parse {} "=a^+b^c").display = "(a^(b^c))" ∧ (Node.parse {} "=a^b^c").display = "((a^b)^c)" ∧
    (Node.parse {} "=a*+b^c").display = "(a*(b^c))" ∧ (Node.parse {} "=a^+b%*c").display = "((a^b%)*c)" := by
  decide +kernel

end Parse

end Spreadsheet.Formula
