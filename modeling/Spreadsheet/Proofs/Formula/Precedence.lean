import Mathlib.Order.Lattice.Nat
import Spreadsheet.Proofs.Formula.Nesting

/-!
Operands joined by operators, and the trees over them that respect precedence. A sign before an operand binds tighter
than a product and looser than a power; what joins two operands groups to the left.
-/

namespace Spreadsheet

def BinaryOp.sign : BinaryOp → Formula.OperatorSign
  | add => .plus
  | subtract => .minus
  | multiply => .multiply
  | divide => .divide
  | power => .power
  | equal => .equal
  | notEqual => .notEqual
  | less => .less
  | lessEqual => .lessEqual
  | greater => .greater
  | greaterEqual => .greaterEqual
  | concat => .concat
  | range => .colon
  | intersect => .intersect

namespace Formula

lemma OperatorSign.binary?_sign (op : BinaryOp) : op.sign.binary? = some op := by cases op <;> rfl

lemma OperatorSign.eq_sign {o : OperatorSign} {op : BinaryOp} (h : o.binary? = some op) : o = op.sign := by
  cases o with
  | percent => cases h
  | _ =>
    obtain rfl := Option.some.inj h
    rfl

lemma precedence_power_of_le {op : BinaryOp} (h : UnaryOp.negate.precedence ≤ op.precedence) : op = .power := by
  revert h
  cases op <;> decide

lemma precedence_le_power (op : BinaryOp) : op.precedence ≤ BinaryOp.power.precedence := by cases op <;> decide

def Literal.token : Literal → Token
  | number x => .number x
  | text s => .text s
  | boolean b => .boolean b
  | error e => .error e

inductive Operand
  | literal (s : Span) (l : Literal)
  | reference (s : Span) (r : ReferenceToken)
  | name (s : Span) (x : String)
  | call (nameSpan : Span) (f : String) (s : Span) (children : List TokenTree) (closed : Bool)
  | group (s : Span) (kind : GroupKind) (children : List TokenTree) (closed : Bool)

namespace Operand

open Parse

def trees : Operand → List TokenTree
  | literal s l => [.token l.token s]
  | reference s r => [.token (.reference r) s]
  | name s x => [.token (.name x) s]
  | call nameSpan f s children closed => [.token (.function f) nameSpan, .group .paren children s closed]
  | group s kind children closed => [.group kind children s closed]

def read (b : Binder) (inner : ExprParser) : Operand → Node
  | literal s l => .literal s l
  | reference s r => Parse.reference b r s
  | name s x => .name s x
  | call nameSpan f s children closed => Parse.call inner f children nameSpan s closed
  | group s kind children closed => Parse.group inner kind children s closed

variable {b : Binder} {inner deeper : ExprParser} {a : Operand} {n : Nat}

lemma read_eq (h : Extends inner deeper) (hc : (a.read b inner).Clean) : a.read b deeper = a.read b inner := by
  cases a with
  | call => exact (h.parallel.call rfl rfl rfl hc).symm
  | group => exact (h.parallel.group rfl rfl hc).symm
  | _ => rfl

def Clean (b : Binder) (a : Operand) : Prop := ∃ n, (a.read b (expression b n)).Clean

/-- How deep expressions nest in the operand. -/
noncomputable def nesting (b : Binder) (a : Operand) : Nat := sInf {n | (a.read b (expression b n)).Clean}

noncomputable def node (b : Binder) (a : Operand) : Node := a.read b (expression b (a.nesting b))

lemma clean_node (h : a.Clean b) : (a.node b).Clean := Nat.sInf_mem h

lemma nesting_le (h : (a.read b (expression b n)).Clean) : a.nesting b ≤ n := Nat.sInf_le h

lemma read_expression (h : a.Clean b) (hn : a.nesting b ≤ n) : a.read b (expression b n) = a.node b :=
  read_eq (extends_of_le hn) (clean_node h)

end Operand

inductive Item
  | operand (a : Operand)
  | sign (o : OperatorSign) (s : Span)

namespace Item

def trees : Item → List TokenTree
  | operand a => a.trees
  | sign o s => [.token (.operator o) s]

/-- How tightly an item holds on to an expression that ends before it. -/
def strength? : Item → Option Nat
  | operand _ => none
  | sign .percent _ => some UnaryOp.percent.precedence
  | sign o _ => o.binary?.map BinaryOp.precedence

lemma strength?_sign (op : BinaryOp) (s : Span) : (sign op.sign s).strength? = some op.precedence := by
  cases op <;> rfl

end Item

/-- No plus sign stands where an operand may start. The flag says whether one may start at the front. -/
def noPrefixPlus : Bool → List Item → Bool
  | _, [] => true
  | _, .operand _ :: l => noPrefixPlus false l
  | _, .sign .percent _ :: l => noPrefixPlus false l
  | starts, .sign o _ :: l => !(starts && o == .plus) && noPrefixPlus true l

lemma noPrefixPlus_sign {op : BinaryOp} {s : Span} {l : List Item} {starts : Bool}
    (h : noPrefixPlus starts (.sign op.sign s :: l) = true) : noPrefixPlus true l = true := by
  cases op <;> simp_all [noPrefixPlus, BinaryOp.sign]

/-- An operand with minus signs before it and percent signs after it. -/
def IsTerm (l : List Item) : Prop := ∃ (minuses : List Span) (a : Operand) (percents : List Span),
  l = minuses.map (.sign .minus) ++ .operand a :: percents.map (.sign .percent)

/-- Terms with operators between them. -/
inductive IsChain : List Item → Prop
  | term {l : List Item} (h : IsTerm l) : IsChain l
  | operator {l r : List Item} (op : BinaryOp) (s : Span) (hl : IsChain l) (hr : IsTerm r) :
      IsChain (l ++ .sign op.sign s :: r)

namespace IsChain

variable {l r : List Item}

lemma minus (s : Span) (h : IsChain l) : IsChain (.sign .minus s :: l) := by
  induction h with
  | term h =>
    obtain ⟨minuses, a, percents, rfl⟩ := h
    exact .term ⟨s :: minuses, a, percents, rfl⟩
  | operator op t _ hr ih => exact .operator op t ih hr

lemma append (op : BinaryOp) (s : Span) (hl : IsChain l) (hr : IsChain r) : IsChain (l ++ .sign op.sign s :: r) := by
  induction hr with
  | term hr => exact .operator op s hl hr
  | operator op' t _ hr ih => simpa using IsChain.operator op' t ih hr

end IsChain

inductive Layout
  | operand (a : Operand)
  | negate (s : Span) (t : Layout)
  | percent (s : Span) (t : Layout)
  | binary (op : BinaryOp) (s : Span) (l r : Layout)

namespace Layout

def inOrder : Layout → List Item
  | operand a => [.operand a]
  | negate s t => .sign .minus s :: t.inOrder
  | percent s t => t.inOrder ++ [.sign .percent s]
  | binary op s l r => l.inOrder ++ .sign op.sign s :: r.inOrder

def precedence? : Layout → Option Nat
  | binary op _ _ _ => some op.precedence
  | operand _ | negate _ _ | percent _ _ => none

def isNegation : Layout → Bool
  | negate _ _ => true
  | operand _ | percent _ _ | binary _ _ _ _ => false

/-- A negation is the root or stands on the right spine. -/
def endsInNegation : Layout → Bool
  | negate _ _ => true
  | binary _ _ _ r => r.endsInNegation
  | operand _ | percent _ _ => false

/-- The order of precedence: what stands below an operator binds tighter, or as tight to the left of it. -/
def Ordered : Layout → Prop
  | operand _ => True
  | negate _ t => (∀ p ∈ t.precedence?, UnaryOp.negate.precedence ≤ p) ∧ t.Ordered
  | percent _ t => t.precedence? = none ∧ t.isNegation = false ∧ t.Ordered
  | binary op _ l r => (∀ p ∈ l.precedence?, op.precedence ≤ p) ∧ (∀ p ∈ r.precedence?, op.precedence < p) ∧
      (op = .power → l.endsInNegation = false) ∧ l.Ordered ∧ r.Ordered

noncomputable def node (b : Binder) : Layout → Node
  | operand a => a.node b
  | negate s t => .unary (s.to (t.node b).span) .negate (t.node b)
  | percent s t => .unary ((t.node b).span.to s) .percent (t.node b)
  | binary op _ l r => .binary ((l.node b).span.to (r.node b).span) op (l.node b) (r.node b)

/-- How deep expressions nest: each sign before an operand starts one, and so does what stands right of an operator. -/
noncomputable def nesting (b : Binder) : Layout → Nat
  | operand a => a.nesting b + 1
  | negate _ t => t.nesting b + 1
  | percent _ t => t.nesting b
  | binary _ _ l r => max (l.nesting b) (r.nesting b + 1)

def Clean (b : Binder) (t : Layout) : Prop := ∀ a, .operand a ∈ t.inOrder → a.Clean b

variable {b : Binder} {t l r m : Layout} {op : BinaryOp} {s : Span}

lemma nesting_pos (b : Binder) (t : Layout) : 0 < t.nesting b := by
  induction t with
  | operand => exact Nat.succ_pos _
  | negate => exact Nat.succ_pos _
  | percent _ _ ih => exact ih
  | binary _ _ _ _ ih _ => exact lt_max_of_lt_left ih

lemma clean_operand {a : Operand} : (operand a).Clean b ↔ a.Clean b := by simp [Clean, inOrder]

lemma clean_negate : (negate s t).Clean b ↔ t.Clean b := by simp [Clean, inOrder]

lemma clean_percent : (percent s t).Clean b ↔ t.Clean b := by simp [Clean, inOrder]

lemma clean_binary : (binary op s l r).Clean b ↔ l.Clean b ∧ r.Clean b := by
  simp only [Clean, inOrder, List.mem_append, List.mem_cons, reduceCtorEq, false_or]
  exact ⟨fun h => ⟨fun a ha => h a (.inl ha), fun a ha => h a (.inr ha)⟩,
    fun h a ha => ha.elim (h.1 a) (h.2 a)⟩

lemma Clean.node (h : t.Clean b) : (t.node b).Clean := by
  induction t with
  | operand a => exact Operand.clean_node (clean_operand.1 h)
  | negate s t ih => exact Node.clean_unary.2 (ih (clean_negate.1 h))
  | percent s t ih => exact Node.clean_unary.2 (ih (clean_percent.1 h))
  | binary op s l r ihl ihr =>
    exact Node.clean_binary.2 ⟨ihl (clean_binary.1 h).1, ihr (clean_binary.1 h).2⟩

lemma Ordered.exists_percents (h : t.Ordered) (hp : t.precedence? = none) (hn : t.isNegation = false) :
    ∃ a percents, t.inOrder = .operand a :: List.map (.sign .percent) percents := by
  induction t with
  | operand a => exact ⟨a, [], rfl⟩
  | negate s t => cases hn
  | percent s t ih =>
    obtain ⟨hp, hn, h⟩ := h
    obtain ⟨a, percents, heq⟩ := ih h hp hn
    exact ⟨a, percents ++ [s], by simp [inOrder, heq]⟩
  | binary op s l r => cases hp

lemma Ordered.isChain (h : t.Ordered) : IsChain t.inOrder := by
  induction t with
  | operand a => exact .term ⟨[], a, [], rfl⟩
  | negate s t ih => exact (ih h.2).minus s
  | percent s t ih =>
    obtain ⟨a, percents, heq⟩ := h.exists_percents rfl rfl
    exact .term ⟨[], a, percents, heq⟩
  | binary op s l r ihl ihr =>
    obtain ⟨-, -, -, hl, hr⟩ := h
    exact (ihl hl).append op s (ihr hr)

/-- An operator and a term put behind a tree, as far to the right as the order of precedence wants. -/
def extend (op : BinaryOp) (s : Span) : Layout → Layout → Layout
  | operand a, m => binary op s (operand a) m
  | percent s' t, m => binary op s (percent s' t) m
  | negate s' t, m => if op = .power then negate s' (t.extend op s m) else binary op s (negate s' t) m
  | binary op' s' l r, m =>
    if op'.precedence < op.precedence ∨ op = .power ∧ r.endsInNegation then binary op' s' l (r.extend op s m)
    else binary op s (binary op' s' l r) m

lemma inOrder_extend : (t.extend op s m).inOrder = t.inOrder ++ .sign op.sign s :: m.inOrder := by
  induction t with
  | operand a => rfl
  | percent s' t => rfl
  | negate s' t ih =>
    rw [extend]
    split
    · rw [inOrder, ih, inOrder, List.cons_append]
    · rfl
  | binary op' s' l r _ ih =>
    rw [extend]
    split
    · rw [inOrder, ih, inOrder, List.append_assoc, List.cons_append]
    · rfl

lemma precedence?_extend {p : Nat} (h : p ∈ (t.extend op s m).precedence?) :
    p = op.precedence ∨ p ∈ t.precedence? := by
  cases t with
  | operand a => exact .inl (Option.some.inj h).symm
  | percent s' t => exact .inl (Option.some.inj h).symm
  | negate s' t =>
    rw [extend] at h
    split at h
    · cases h
    · exact .inl (Option.some.inj h).symm
  | binary op' s' l r =>
    rw [extend] at h
    split at h
    · exact .inr h
    · exact .inl (Option.some.inj h).symm

lemma Ordered.extend (ht : t.Ordered) (hm : m.Ordered) (hroot : m.precedence? = none) :
    (t.extend op s m).Ordered := by
  have hright : ∀ p ∈ m.precedence?, op.precedence < p := by simp [hroot]
  induction t with
  | operand a => exact ⟨by simp [precedence?], hright, fun _ => rfl, trivial, hm⟩
  | percent s' t => exact ⟨by simp [precedence?], hright, fun _ => rfl, ht, hm⟩
  | negate s' t ih =>
    rw [Layout.extend]
    split
    · rename_i hop
      refine ⟨fun p hp => ?_, ih ht.2⟩
      rcases precedence?_extend hp with rfl | hp
      · rw [hop]
        decide
      · exact ht.1 p hp
    · rename_i hop
      exact ⟨by simp [precedence?], hright, fun h => absurd h hop, ht, hm⟩
  | binary op' s' l r ihl ihr =>
    obtain ⟨hl, hr, hpower, hlo, hro⟩ := ht
    rw [Layout.extend]
    split
    · rename_i hdown
      refine ⟨hl, fun p hp => ?_, hpower, hlo, ihr hro⟩
      rcases precedence?_extend hp with rfl | hp
      · rcases hdown with hlt | ⟨rfl, hneg⟩
        · exact hlt
        · -- only a negation ends in one without an operator of its own, and it stays one
          by_contra hle
          cases r with
          | operand => cases hneg
          | percent => cases hneg
          | negate => simp [Layout.extend, precedence?] at hp
          | binary op'' =>
            have := hr _ rfl
            have := precedence_le_power op''
            omega
      · exact hr p hp
    · rename_i hup
      refine ⟨fun p hp => ?_, hright, fun hop => ?_, ⟨hl, hr, hpower, hlo, hro⟩, hm⟩
      · obtain rfl := Option.some.inj hp
        exact Nat.le_of_not_lt fun hlt => hup (.inl hlt)
      · exact Bool.eq_false_iff.2 fun hneg => hup (.inr ⟨hop, hneg⟩)

lemma exists_percents (a : Operand) (percents : List Span) : ∃ t : Layout,
    t.inOrder = .operand a :: percents.map (.sign .percent) ∧ t.Ordered ∧ t.precedence? = none ∧
      t.isNegation = false := by
  induction percents using List.reverseRecOn with
  | nil => exact ⟨.operand a, rfl, trivial, rfl, rfl⟩
  | append_singleton percents s ih =>
    obtain ⟨t, heq, ht, hp, hn⟩ := ih
    exact ⟨.percent s t, by simp [inOrder, heq], ⟨hp, hn, ht⟩, rfl, rfl⟩

lemma exists_term {items : List Item} (h : IsTerm items) :
    ∃ t : Layout, t.inOrder = items ∧ t.Ordered ∧ t.precedence? = none := by
  obtain ⟨minuses, a, percents, rfl⟩ := h
  induction minuses with
  | nil =>
    obtain ⟨t, heq, ht, hp, -⟩ := exists_percents a percents
    exact ⟨t, heq, ht, hp⟩
  | cons s minuses ih =>
    obtain ⟨t, heq, ht, hp⟩ := ih
    exact ⟨.negate s t, by simp [inOrder, heq], ⟨by simp [hp], ht⟩, rfl⟩

lemma exists_ordered {items : List Item} (h : IsChain items) : ∃ t : Layout, t.inOrder = items ∧ t.Ordered := by
  induction h with
  | term h =>
    obtain ⟨t, heq, ht, -⟩ := exists_term h
    exact ⟨t, heq, ht⟩
  | operator op s _ hr ih =>
    obtain ⟨t, rfl, ht⟩ := ih
    obtain ⟨m, rfl, hm, hroot⟩ := exists_term hr
    exact ⟨t.extend op s m, inOrder_extend, ht.extend hm hroot⟩

/-! What follows a tree belongs to it unless it is too weak for every expression that ends there. -/

/-- The items do not go on with an expression that takes operators of at least the precedence. -/
def Stops (precedence : Nat) (items : List Item) : Prop := ∀ q ∈ items.head?.bind Item.strength?, q < precedence

/-- No expression within the tree goes on with the items. -/
def Sealed : Layout → List Item → Prop
  | operand _, _ => True
  | percent _ _, _ => True
  | negate _ t, items => Stops UnaryOp.negate.precedence items ∧ t.Sealed items
  | binary op _ _ r, items => Stops (op.precedence + 1) items ∧ r.Sealed items

variable {items : List Item}

lemma stops_sign {p : Nat} : Stops p (.sign op.sign s :: items) ↔ op.precedence < p := by
  simp [Stops, Item.strength?_sign]

lemma stops_percent {p : Nat} : Stops p (.sign .percent s :: items) ↔ UnaryOp.percent.precedence < p := by
  simp [Stops, Item.strength?]

/-- An operator ends all expressions left of it in a tree in order. -/
lemma Ordered.sealed_sign (ht : t.Ordered) (hroot : ∀ p ∈ t.precedence?, op.precedence ≤ p)
    (hpower : op = .power → t.endsInNegation = false) : t.Sealed (.sign op.sign s :: items) := by
  induction t with
  | operand => trivial
  | percent => trivial
  | negate s' t ih =>
    have hop : op ≠ .power := fun h => by simpa [endsInNegation] using hpower h
    have hlt : op.precedence < UnaryOp.negate.precedence :=
      Nat.lt_of_not_le fun h => hop (precedence_power_of_le h)
    exact ⟨stops_sign.2 hlt, ih ht.2 (fun p hp => hlt.le.trans (ht.1 p hp)) fun h => absurd h hop⟩
  | binary op' s' l r _ ih =>
    obtain ⟨-, hr, -, -, hro⟩ := ht
    have hle := hroot _ rfl
    exact ⟨stops_sign.2 (Nat.lt_succ_of_le hle), ih hro (fun p hp => hle.trans (hr p hp).le) hpower⟩

lemma Sealed.root (h : t.Sealed (.sign op.sign s :: items)) : ∀ p ∈ t.precedence?, op.precedence ≤ p := by
  cases t with
  | binary op' => simpa [precedence?] using Nat.le_of_lt_succ (stops_sign.1 h.1)
  | _ => simp [precedence?]

lemma Sealed.endsInNegation (h : t.Sealed (.sign BinaryOp.power.sign s :: items)) : t.endsInNegation = false := by
  induction t with
  | operand => rfl
  | percent => rfl
  | negate s' t => exact absurd (stops_sign.1 h.1) (by decide)
  | binary op' s' l r _ ih => exact ih h.2

lemma Sealed.precedence?_of_percent (h : t.Sealed (.sign .percent s :: items)) : t.precedence? = none := by
  cases t with
  | binary op' =>
    have hlt := stops_percent.1 h.1
    have := precedence_le_power op'
    simp only [UnaryOp.precedence, BinaryOp.precedence] at hlt this
    omega
  | _ => rfl

lemma Sealed.isNegation_of_percent (h : t.Sealed (.sign .percent s :: items)) : t.isNegation = false := by
  cases t with
  | negate => exact absurd (stops_percent.1 h.1) (by decide)
  | _ => rfl

lemma sealed_of_simple (hp : t.precedence? = none) (hn : t.isNegation = false) : t.Sealed items := by
  cases t with
  | operand => trivial
  | percent => trivial
  | negate => cases hn
  | binary => cases hp

lemma sealed_nil : t.Sealed [] := by
  induction t with
  | operand => trivial
  | percent => trivial
  | negate _ _ ih => exact ⟨by simp [Stops], ih⟩
  | binary _ _ _ _ _ ih => exact ⟨by simp [Stops], ih⟩

end Layout

end Formula

end Spreadsheet
