import Spreadsheet.Proofs.Formula.Precedence

/-! The parser builds the tree over operands and operators that is in order, and finds fault with anything else. -/

namespace Spreadsheet.Formula

namespace Parse

open Layout

variable {b : Binder} {inner : ExprParser} {precedence stop n : Nat} {left right : Node} {rest rest' : List TokenTree}
  {items : List Item} {t : Layout} {op : BinaryOp} {s : Span}

/-! There are always enough levels for the operators that are left. -/

lemma climb_fuel (h : Shrinks inner) {m m' : Nat} (hm : rest.length ≤ m) (hm' : rest.length ≤ m') :
    climb inner precedence stop m left rest = climb inner precedence stop m' left rest := by
  induction m generalizing m' left rest with
  | zero =>
    obtain rfl := List.eq_nil_of_length_eq_zero (Nat.le_zero.1 hm)
    cases m' <;> rfl
  | succ m ih =>
    cases rest with
    | nil => cases m' <;> rfl
    | cons x rest =>
      obtain ⟨m', rfl⟩ : ∃ k, m' = k + 1 := ⟨m' - 1, by simp only [List.length_cons] at hm'; omega⟩
      have hrest : rest.length ≤ m := Nat.le_of_succ_le_succ hm
      have hrest' : rest.length ≤ m' := Nat.le_of_succ_le_succ hm'
      cases x with
      | token t s =>
        cases t with
        | operator o =>
          cases ho : o.binary? with
          | none =>
            simp only [climb, ho]
            rw [ih hrest hrest']
          | some op =>
            have hle := h (op.precedence + 1) stop rest
            simp only [climb, ho]
            rw [ih (hle.trans hrest) (hle.trans hrest')]
        | _ => rfl
      | _ => rfl

/-- All operators after a left operand that are strong enough. -/
def climbAll (inner : ExprParser) (precedence stop : Nat) (left : Node) (rest : List TokenTree) :
    Node × List TokenTree :=
  climb inner precedence stop rest.length left rest

lemma climbAll_percent (h : precedence ≤ UnaryOp.percent.precedence) :
    climbAll inner precedence stop left (.token (.operator .percent) s :: rest) =
      climbAll inner precedence stop (.unary (left.span.to s) .percent left) rest := by
  simp only [climbAll, List.length_cons, climb, OperatorSign.binary?, if_neg (Nat.not_lt.2 h)]

lemma climbAll_sign (hs : Shrinks inner) (h : precedence ≤ op.precedence)
    (hx : inner (op.precedence + 1) stop rest = (right, rest')) :
    climbAll inner precedence stop left (.token (.operator op.sign) s :: rest) =
      climbAll inner precedence stop (.binary (left.span.to right.span) op left right) rest' := by
  have hle := hs (op.precedence + 1) stop rest
  rw [hx] at hle
  simp only [climbAll, List.length_cons, climb, OperatorSign.binary?_sign, if_neg (Nat.not_lt.2 h), hx]
  exact climb_fuel hs hle (Nat.le_refl _)

lemma climbAll_of_stops (h : Stops precedence items) :
    climbAll inner precedence stop left (items.flatMap Item.trees) = (left, items.flatMap Item.trees) := by
  cases items with
  | nil => rfl
  | cons x items =>
    cases x with
    | operand a =>
      cases a with
      | literal s l => cases l <;> rfl
      | _ => rfl
    | sign o s =>
      cases ho : o.binary? with
      | none =>
        obtain rfl : o = .percent := by cases o <;> first | rfl | cases ho
        have hlt := stops_percent.1 h
        simp only [climbAll, List.flatMap_cons, Item.trees, List.cons_append, List.nil_append, List.length_cons,
          climb, OperatorSign.binary?, if_pos hlt]
      | some op =>
        obtain rfl := OperatorSign.eq_sign ho
        have hlt := stops_sign.1 h
        simp only [climbAll, List.flatMap_cons, Item.trees, List.cons_append, List.nil_append, List.length_cons,
          climb, ho, if_pos hlt]

lemma operand_trees (a : Operand) : operand b inner stop (a.trees ++ rest) = (a.read b inner, rest) := by
  cases a with
  | literal s l => cases l <;> rfl
  | _ => rfl

lemma expression_succ (nodes : List TokenTree) : expression b (n + 1) precedence stop nodes =
    climbAll (expression b n) precedence stop (operand b (expression b n) stop nodes).1
      (operand b (expression b n) stop nodes).2 := rfl

/-- A tree in order is read from its items. What follows stands behind it, for the operators that it may still get. -/
lemma expression_inOrder (ht : t.Ordered) (hc : t.Clean b) (hn : t.nesting b ≤ n + 1)
    (hroot : ∀ p ∈ t.precedence?, precedence ≤ p) (hp : precedence ≤ UnaryOp.percent.precedence)
    (hs : t.Sealed items) : expression b (n + 1) precedence stop ((t.inOrder ++ items).flatMap Item.trees) =
      climbAll (expression b n) precedence stop (t.node b) (items.flatMap Item.trees) := by
  -- on the tree: right operands are read for stronger operators only, so by `Sealed` they take in nothing that follows
  induction t generalizing n precedence items with
  | operand a =>
    have hread := Operand.read_expression (clean_operand.1 hc) (Nat.le_of_succ_le_succ hn)
    simp only [inOrder, List.cons_append, List.nil_append, List.flatMap_cons, Item.trees, expression_succ,
      operand_trees, hread, Layout.node]
  | negate s t ih =>
    obtain ⟨hstops, hs⟩ := hs
    have hn : t.nesting b ≤ n := Nat.le_of_succ_le_succ hn
    obtain ⟨n, rfl⟩ : ∃ k, n = k + 1 := ⟨n - 1, by have := t.nesting_pos b; omega⟩
    have hinner := ih ht.2 (clean_negate.1 hc) hn ht.1 (by decide) hs
    rw [climbAll_of_stops hstops] at hinner
    simp only [inOrder, List.cons_append, List.flatMap_cons, Item.trees, List.nil_append, expression_succ (n := n + 1),
      operand, hinner, Layout.node]
  | percent s t ih =>
    obtain ⟨hroot, hneg, ht⟩ := ht
    rw [inOrder, List.append_assoc, List.cons_append, List.nil_append,
      ih ht (clean_percent.1 hc) hn (by simp [hroot]) hp (sealed_of_simple hroot hneg), List.flatMap_cons, Item.trees,
      List.cons_append, List.nil_append, climbAll_percent hp, Layout.node]
  | binary op s l r ihl ihr =>
    obtain ⟨hl, hr, hpower, hlo, hro⟩ := ht
    obtain ⟨hstops, hs⟩ := hs
    obtain ⟨hcl, hcr⟩ := clean_binary.1 hc
    have hle := hroot _ rfl
    have hnl : l.nesting b ≤ n + 1 := (le_max_left _ _).trans hn
    have hnr : r.nesting b ≤ n := Nat.le_of_succ_le_succ ((le_max_right _ _).trans hn)
    obtain ⟨n, rfl⟩ : ∃ k, n = k + 1 := ⟨n - 1, by have := r.nesting_pos b; omega⟩
    have hright := ihr hro hcr hnr hr (by cases op <;> decide) hs
    rw [climbAll_of_stops hstops] at hright
    rw [inOrder, List.append_assoc, List.cons_append,
      ihl hlo hcl hnl (fun p hp => hle.trans (hl p hp)) hp (hlo.sealed_sign hl hpower), List.flatMap_cons, Item.trees,
      List.cons_append, List.nil_append, climbAll_sign (shrinks_expression _) hle hright, Layout.node]

lemma expression_of_stops (ht : t.Ordered) (hc : t.Clean b) (hn : t.nesting b ≤ n)
    (hroot : ∀ p ∈ t.precedence?, precedence ≤ p) (hp : precedence ≤ UnaryOp.percent.precedence)
    (hs : t.Sealed items) (hstops : Stops precedence items) :
    expression b n precedence stop ((t.inOrder ++ items).flatMap Item.trees) =
      (t.node b, items.flatMap Item.trees) := by
  obtain ⟨n, rfl⟩ : ∃ k, n = k + 1 := ⟨n - 1, by have := t.nesting_pos b; omega⟩
  rw [expression_inOrder ht hc hn hroot hp hs, climbAll_of_stops hstops]

/-- The tree that is read at the front of some items, and the items that are left. -/
structure Front (b : Binder) (n precedence : Nat) (items : List Item) (t : Layout) (left : List Item) : Prop where
  items_eq : items = t.inOrder ++ left
  ordered : t.Ordered
  clean : t.Clean b
  nesting_le : t.nesting b ≤ n
  root : ∀ p ∈ t.precedence?, precedence ≤ p
  isSealed : t.Sealed left
  noPlus : noPrefixPlus false left = true

namespace Front

variable {behind behind' : List Item} {r : Layout}

lemma expression_eq (h : Front b n precedence items t behind) (hp : precedence ≤ UnaryOp.percent.precedence)
    (hstops : Stops precedence behind) :
    expression b n precedence stop (items.flatMap Item.trees) = (t.node b, behind.flatMap Item.trees) := by
  rw [h.items_eq]
  exact expression_of_stops h.ordered h.clean h.nesting_le h.root hp h.isSealed hstops

lemma operand {a : Operand} (hc : (a.read b (expression b n)).Clean) (hplus : noPrefixPlus false behind = true) :
    Front b (n + 1) precedence (.operand a :: behind) (.operand a) behind where
  items_eq := rfl
  ordered := trivial
  clean := clean_operand.2 ⟨n, hc⟩
  nesting_le := Nat.succ_le_succ (Operand.nesting_le hc)
  root := by simp [precedence?]
  isSealed := trivial
  noPlus := hplus

lemma negate (h : Front b n UnaryOp.negate.precedence items t behind) (hstops : Stops UnaryOp.negate.precedence behind) :
    Front b (n + 1) precedence (.sign .minus s :: items) (.negate s t) behind where
  items_eq := by rw [h.items_eq, inOrder, List.cons_append]
  ordered := ⟨h.root, h.ordered⟩
  clean := clean_negate.2 h.clean
  nesting_le := Nat.succ_le_succ h.nesting_le
  root := by simp [precedence?]
  isSealed := ⟨hstops, h.isSealed⟩
  noPlus := h.noPlus

lemma percent (h : Front b n precedence items t (.sign .percent s :: behind)) :
    Front b n precedence items (.percent s t) behind where
  items_eq := by rw [h.items_eq, inOrder, List.append_assoc, List.cons_append, List.nil_append]
  ordered := ⟨h.isSealed.precedence?_of_percent, h.isSealed.isNegation_of_percent, h.ordered⟩
  clean := clean_percent.2 h.clean
  nesting_le := h.nesting_le
  root := by simp [precedence?]
  isSealed := trivial
  noPlus := h.noPlus

lemma binary (h : Front b (n + 1) precedence items t (.sign op.sign s :: behind))
    (hr : Front b n (op.precedence + 1) behind r behind') (hstops : Stops (op.precedence + 1) behind')
    (hle : precedence ≤ op.precedence) : Front b (n + 1) precedence items (.binary op s t r) behind' where
  items_eq := by rw [h.items_eq, hr.items_eq, inOrder, List.append_assoc, List.cons_append]
  ordered := by
    refine ⟨h.isSealed.root, fun p hp => Nat.lt_of_succ_le (hr.root p hp), fun hop => ?_, h.ordered, hr.ordered⟩
    have hsealed := h.isSealed
    rw [hop] at hsealed
    exact hsealed.endsInNegation
  clean := clean_binary.2 ⟨h.clean, hr.clean⟩
  nesting_le := max_le h.nesting_le (Nat.succ_le_succ hr.nesting_le)
  root p hp := Option.some.inj hp ▸ hle
  isSealed := ⟨hstops, hr.isSealed⟩
  noPlus := hr.noPlus

lemma exists_of_climbAll (hinner : ∀ precedence items, noPrefixPlus true items = true →
      (expression b n precedence stop (items.flatMap Item.trees)).1.Clean →
      ∃ t behind, Front b n precedence items t behind ∧ Stops precedence behind)
    (h : Front b (n + 1) precedence items t behind)
    (hc : (climbAll (expression b n) precedence stop left (behind.flatMap Item.trees)).1.Clean) :
    ∃ t behind, Front b (n + 1) precedence items t behind ∧ Stops precedence behind := by
  -- on how many items are left, since an operator takes its whole right operand with it
  induction hlength : behind.length using Nat.strong_induction_on generalizing t left behind with
  | h length ih =>
    subst hlength
    by_cases hstops : Stops precedence behind
    · exact ⟨t, behind, h, hstops⟩
    cases behind with
    | nil => exact absurd (by simp [Stops]) hstops
    | cons x behind =>
      cases x with
      | operand a => exact absurd (by simp [Stops, Item.strength?]) hstops
      | sign o s =>
        cases ho : o.binary? with
        | none =>
          obtain rfl : o = .percent := by cases o <;> first | rfl | cases ho
          have hle := Nat.le_of_not_lt (mt stops_percent.2 hstops)
          simp only [List.flatMap_cons, Item.trees, List.cons_append, List.nil_append, climbAll_percent hle] at hc
          exact ih _ (Nat.lt_succ_self _) h.percent hc rfl
        | some op =>
          obtain rfl := OperatorSign.eq_sign ho
          have hle := Nat.le_of_not_lt (mt stops_sign.2 hstops)
          simp only [List.flatMap_cons, Item.trees, List.cons_append, List.nil_append,
            climbAll_sign (shrinks_expression n) hle rfl] at hc
          have hright := (Node.clean_binary.1 (clean_of_climb hc)).2
          obtain ⟨r, behind', hr, hstops'⟩ := hinner _ _ (noPrefixPlus_sign h.noPlus) hright
          rw [hr.expression_eq (by cases op <;> decide) hstops'] at hc
          refine ih _ ?_ (h.binary hr hstops' hle) hc rfl
          rw [hr.items_eq, List.length_cons, List.length_append]
          omega

lemma exists_of_clean (n : Nat) : ∀ precedence items, noPrefixPlus true items = true →
    (expression b n precedence stop (items.flatMap Item.trees)).1.Clean →
    ∃ t behind, Front b n precedence items t behind ∧ Stops precedence behind := by
  induction n with
  | zero => exact fun _ _ _ hc => absurd hc Node.not_clean_invalid
  | succ n ih =>
    intro precedence items hplus hc
    rw [expression_succ] at hc
    have hleft := clean_of_climb hc
    cases items with
    | nil => exact absurd hleft Node.not_clean_invalid
    | cons x items =>
      cases x with
      | operand a =>
        rw [List.flatMap_cons, Item.trees, operand_trees] at hc hleft
        exact exists_of_climbAll ih (operand hleft hplus) hc
      | sign o s =>
        cases o with
        | minus =>
          have hplus : noPrefixPlus true items = true := by simpa [noPrefixPlus] using hplus
          simp only [List.flatMap_cons, Item.trees, List.cons_append, List.nil_append, Parse.operand] at hc hleft
          obtain ⟨t, behind, h, hstops⟩ := ih _ _ hplus (Node.clean_unary.1 hleft)
          rw [h.expression_eq (by decide) hstops] at hc
          exact exists_of_climbAll ih (h.negate hstops) hc
        | plus => simp [noPrefixPlus] at hplus
        | _ => exact absurd hleft Node.not_clean_invalid

end Front

lemma sequence_inOrder (ht : t.Ordered) (hc : t.Clean b) (hn : t.nesting b ≤ n) (span : Span) :
    sequence (expression b n) (t.inOrder.flatMap Item.trees) span = t.node b := by
  have h : expression b n 0 span.stop ((t.inOrder ++ []).flatMap Item.trees) = (t.node b, [].flatMap Item.trees) :=
    expression_of_stops ht hc hn (fun _ _ => Nat.zero_le _) (Nat.zero_le _) sealed_nil (by simp [Stops])
  rw [List.append_nil] at h
  rw [sequence, h]
  rfl

lemma exists_layout (hplus : noPrefixPlus true items = true) {span : Span}
    (hc : (sequence (expression b n) (items.flatMap Item.trees) span).Clean) :
    ∃ t : Layout, t.inOrder = items ∧ t.Ordered ∧ t.Clean b ∧ t.nesting b ≤ n := by
  unfold sequence at hc
  split at hc
  · rename_i hx
    have hfirst : (expression b n 0 span.stop (items.flatMap Item.trees)).1.Clean := by rwa [hx]
    obtain ⟨t, behind, h, hstops⟩ := Front.exists_of_clean n 0 items hplus hfirst
    obtain rfl : behind = [] := by
      cases behind with
      | nil => rfl
      | cons x behind =>
        rw [h.expression_eq (Nat.zero_le _) hstops] at hx
        have hnil := (Prod.mk.inj hx).2
        rcases x with ⟨⟨⟩⟩ | ⟨⟩ <;> simp [Item.trees, Operand.trees] at hnil
    exact ⟨t, by rw [h.items_eq, List.append_nil], h.ordered, h.clean, h.nesting_le⟩
  · exact absurd hc Node.not_clean_invalid

end Parse

namespace Layout

/-! Reading operands as one name leaves nothing of a tree but its shape, and the parser finds one shape only. -/

def blankItem : Item → Item
  | .operand _ => .operand (.name ⟨0, 0⟩ "")
  | .sign o s => .sign o s

def blank : Layout → Layout
  | operand _ => operand (.name ⟨0, 0⟩ "")
  | negate s t => negate s t.blank
  | percent s t => percent s t.blank
  | binary op s l r => binary op s l.blank r.blank

variable {b : Binder} {t t' : Layout}

lemma inOrder_blank (t : Layout) : t.blank.inOrder = t.inOrder.map blankItem := by
  induction t with
  | operand a => rfl
  | negate s t ih => simp [blank, inOrder, ih, blankItem]
  | percent s t ih => simp [blank, inOrder, ih, blankItem]
  | binary op s l r ihl ihr => simp [blank, inOrder, ihl, ihr, blankItem]

lemma precedence?_blank (t : Layout) : t.blank.precedence? = t.precedence? := by cases t <;> rfl

lemma isNegation_blank (t : Layout) : t.blank.isNegation = t.isNegation := by cases t <;> rfl

lemma endsInNegation_blank (t : Layout) : t.blank.endsInNegation = t.endsInNegation := by
  induction t with
  | binary op s l r _ ih => exact ih
  | _ => rfl

lemma Ordered.blank (h : t.Ordered) : t.blank.Ordered := by
  induction t with
  | operand a => trivial
  | negate s t ih => exact ⟨by rw [precedence?_blank]; exact h.1, ih h.2⟩
  | percent s t ih => exact ⟨by rw [precedence?_blank]; exact h.1, by rw [isNegation_blank]; exact h.2.1, ih h.2.2⟩
  | binary op s l r ihl ihr =>
    obtain ⟨hl, hr, hpower, hlo, hro⟩ := h
    exact ⟨by rwa [precedence?_blank], by rwa [precedence?_blank], by rwa [endsInNegation_blank], ihl hlo, ihr hro⟩

lemma clean_blank (t : Layout) : t.blank.Clean b := by
  intro a ha
  rw [inOrder_blank, List.mem_map] at ha
  obtain ⟨x, -, hx⟩ := ha
  cases x with
  | operand a' =>
    obtain rfl := Item.operand.inj hx
    exact ⟨0, Node.clean_name⟩
  | sign o s => cases hx

lemma length_nodes_blank (t : Layout) : (t.blank.node b).nodes.length = t.inOrder.length := by
  induction t with
  | operand a => rfl
  | negate s t ih => simp [blank, node, Node.nodes, inOrder, ih]
  | percent s t ih => simp [blank, node, Node.nodes, inOrder, ih]
  | binary op s l r ihl ihr => simp [blank, node, Node.nodes, inOrder, ihl, ihr, Nat.add_assoc]

lemma eq_of_node_blank (h : t.blank.node b = t'.blank.node b) (hitems : t.inOrder = t'.inOrder) : t = t' := by
  have hname : ∀ s x, Operand.node b (.name s x) = .name s x := fun _ _ => rfl
  induction t generalizing t' with
  | operand a =>
    cases t' with
    | operand a' => simpa [inOrder] using hitems
    | _ => simp [blank, node, hname] at h
  | negate s t ih =>
    cases t' with
    | negate s' t' =>
      obtain ⟨hs, hbelow⟩ := List.cons.inj hitems
      obtain ⟨-, rfl⟩ := Item.sign.inj hs
      rw [ih (Node.unary.inj h).2.2 hbelow]
    | _ => simp [blank, node, hname] at h
  | percent s t ih =>
    cases t' with
    | percent s' t' =>
      obtain ⟨hbelow, hs⟩ := List.append_inj' hitems rfl
      obtain ⟨-, rfl⟩ := Item.sign.inj (List.cons.inj hs).1
      rw [ih (Node.unary.inj h).2.2 hbelow]
    | _ => simp [blank, node, hname] at h
  | binary op s l r ihl ihr =>
    cases t' with
    | binary op' s' l' r' =>
      obtain ⟨-, rfl, hl, hr⟩ := Node.binary.inj h
      have hlength : l.inOrder.length = l'.inOrder.length := by
        rw [← length_nodes_blank (b := b), ← length_nodes_blank (b := b), hl]
      obtain ⟨hleft, hrest⟩ := List.append_inj hitems hlength
      obtain ⟨hs, hright⟩ := List.cons.inj hrest
      obtain ⟨-, rfl⟩ := Item.sign.inj hs
      rw [ihl hl hleft, ihr hr hright]
    | _ => simp [blank, node, hname] at h

lemma ordered_unique (ht : t.Ordered) (ht' : t'.Ordered) (h : t.inOrder = t'.inOrder) : t = t' := by
  let b : Binder := {}
  let n := max (t.blank.nesting b) (t'.blank.nesting b)
  have hread := Parse.sequence_inOrder (n := n) ht.blank (clean_blank t) (le_max_left ..) ⟨0, 0⟩
  have hread' := Parse.sequence_inOrder (n := n) ht'.blank (clean_blank t') (le_max_right ..) ⟨0, 0⟩
  rw [inOrder_blank] at hread hread'
  rw [← h] at hread'
  exact eq_of_node_blank (hread.symm.trans hread') h

end Layout

namespace Parse

open Layout

/-- Operands and signs are read without a problem just in case they are terms with operators between them, all operands
can be read, and the tree in order behind them nests no deeper than the parser goes. What is read then is this tree, the
only one in order. -/
theorem sequence_clean_iff (b : Binder) (n : Nat) (span : Span) {items : List Item}
    (hplus : noPrefixPlus true items = true) :
    ((sequence (expression b n) (items.flatMap Item.trees) span).firstInvalid? = none ↔
      IsChain items ∧ (∀ a, .operand a ∈ items → a.Clean b) ∧
        ∀ t : Layout, t.inOrder = items → t.Ordered → t.nesting b ≤ n) ∧
    ((sequence (expression b n) (items.flatMap Item.trees) span).firstInvalid? = none →
      ∃ t : Layout, (∀ t' : Layout, t'.inOrder = items ∧ t'.Ordered ↔ t' = t) ∧
        sequence (expression b n) (items.flatMap Item.trees) span = t.node b) := by
  refine ⟨⟨fun hc => ?_, fun ⟨hchain, hclean, hnesting⟩ => ?_⟩, fun hc => ?_⟩
  · obtain ⟨t, rfl, ht, hclean, hn⟩ := exists_layout hplus hc
    exact ⟨ht.isChain, hclean, fun t' heq ht' => by rwa [ordered_unique ht' ht heq]⟩
  · obtain ⟨t, rfl, ht⟩ := exists_ordered hchain
    have hread := sequence_inOrder ht hclean (hnesting t rfl ht) span
    rw [hread]
    exact Clean.node hclean
  · obtain ⟨t, rfl, ht, hclean, hn⟩ := exists_layout hplus hc
    refine ⟨t, fun t' => ⟨fun ⟨heq, ht'⟩ => ordered_unique ht' ht heq, ?_⟩, sequence_inOrder ht hclean hn span⟩
    rintro rfl
    exact ⟨rfl, ht⟩

/-- The tree of `2^-x^(y)%`. -/
def powerLayout : Layout :=
  .binary .power ⟨1, 2⟩ (.operand (.literal ⟨0, 1⟩ (.number 2))) (.negate ⟨2, 3⟩
    (.binary .power ⟨4, 5⟩ (.operand (.name ⟨3, 4⟩ "x"))
      (.percent ⟨8, 9⟩ (.operand (.group ⟨5, 8⟩ .paren [.token (.name "y") ⟨6, 7⟩] true)))))

theorem sequence_clean_iff_power : noPrefixPlus true powerLayout.inOrder = true ∧
    sequence (expression {} 8) (powerLayout.inOrder.flatMap Item.trees) ⟨0, 9⟩ = powerLayout.node {} := by
  have hordered : powerLayout.Ordered := by
    simp [powerLayout, Ordered, precedence?, isNegation, Layout.endsInNegation, UnaryOp.precedence, BinaryOp.precedence]
  obtain ⟨t, ht, heq⟩ := (@sequence_clean_iff {} 8 ⟨0, 9⟩ powerLayout.inOrder rfl).2 rfl
  exact ⟨rfl, by rw [heq, (ht powerLayout).1 ⟨rfl, hordered⟩]⟩

end Parse

end Spreadsheet.Formula
