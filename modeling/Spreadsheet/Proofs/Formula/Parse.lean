import Mathlib.Tactic.Lemma
import Spreadsheet.Formula.Parse
import Spreadsheet.Proofs.Value

/-! Trees of parsed formulas: references are to ranges that sheets can have, with their corners in order, and neither
arrays nor unions are empty. -/

namespace Spreadsheet

namespace Address

lemma lt_of_columnOfLetters {cs : List Char} {col : Nat} (h : columnOfLetters cs = .ok col) : col < maxCols := by
  unfold columnOfLetters at h
  split at h
  · cases h
  · split at h
    · cases h
    · dsimp only at h
      split at h
      · rename_i hlt
        exact Except.ok.inj h ▸ hlt
      · cases h

lemma lt_of_rowOfDigits? {cs : List Char} {row : Nat} (h : rowOfDigits? cs = some row) : row < maxRows := by
  unfold rowOfDigits? at h
  split at h
  · cases h
  · dsimp only at h
    split at h
    · rename_i hrow
      obtain rfl := Option.some.inj h
      omega
    · cases h

lemma parts_of_parseChars {cs : List Char} {a : Address} (h : parseChars cs = .ok a) :
    columnOfLetters ((takeMark (Text.trimChars cs)).2.takeWhile Char.isAlpha) = .ok a.col ∧
      rowOfDigits? (takeMark ((takeMark (Text.trimChars cs)).2.dropWhile Char.isAlpha)).2 = some a.row := by
  unfold parseChars at h
  dsimp only at h
  split at h
  · cases h
  · cases hcol : columnOfLetters (((takeMark (Text.trimChars cs)).2).takeWhile Char.isAlpha) with
    | error e => simp [hcol, bind, Except.bind] at h
    | ok col =>
      simp only [hcol, bind, Except.bind, pure, Except.pure] at h
      split at h
      · cases h
      · rename_i row hrow
        obtain rfl := Except.ok.inj h
        exact ⟨rfl, hrow⟩

lemma onSheet_parseChars {cs : List Char} {a : Address} (h : parseChars cs = .ok a) : a.onSheet :=
  ⟨lt_of_rowOfDigits? (parts_of_parseChars h).2, lt_of_columnOfLetters (parts_of_parseChars h).1⟩

end Address

namespace Range

lemma onSheet_cellsOf? {a b : List Char} {r : Range} (h : AreaForm.cellsOf? a b = some r) : r.OnSheet := by
  unfold AreaForm.cellsOf? at h
  split at h
  · rename_i ha hb
    exact Option.some.inj h ▸ onSheet_corners (Address.onSheet_parseChars ha) (Address.onSheet_parseChars hb)
  · cases h

lemma lt_of_columnPart? {cs : List Char} {col : Nat} {fixed : Bool}
    (h : AreaForm.columnPart? cs = some (col, fixed)) : col < maxCols := by
  unfold AreaForm.columnPart? at h
  dsimp only at h
  split at h
  · rename_i hcol
    obtain ⟨rfl, -⟩ := Prod.mk.inj (Option.some.inj h)
    exact Address.lt_of_columnOfLetters hcol
  · cases h

lemma lt_of_rowPart? {cs : List Char} {row : Nat} {fixed : Bool}
    (h : AreaForm.rowPart? cs = some (row, fixed)) : row < maxRows := by
  unfold AreaForm.rowPart? at h
  obtain ⟨row', hrow, hx⟩ := Option.map_eq_some_iff.1 h
  obtain ⟨rfl, -⟩ := Prod.mk.inj hx
  exact Address.lt_of_rowOfDigits? hrow

lemma onSheet_columnsOf? {a b : List Char} {r : Range} (h : AreaForm.columnsOf? a b = some r) : r.OnSheet := by
  unfold AreaForm.columnsOf? at h
  split at h
  · rename_i ha hb
    refine Option.some.inj h ▸ onSheet_corners ⟨?_, lt_of_columnPart? ha⟩ ⟨?_, lt_of_columnPart? hb⟩ <;>
      simp [maxRows]
  · cases h

lemma onSheet_rowsOf? {a b : List Char} {r : Range} (h : AreaForm.rowsOf? a b = some r) : r.OnSheet := by
  unfold AreaForm.rowsOf? at h
  split at h
  · rename_i ha hb
    refine Option.some.inj h ▸ onSheet_corners ⟨lt_of_rowPart? ha, ?_⟩ ⟨lt_of_rowPart? hb, ?_⟩ <;>
      simp [maxCols]
  · cases h

lemma onSheet_ofArea? {s : String} {r : Range} (h : ofArea? s = some r) : r.OnSheet := by
  obtain ⟨⟨_, form⟩, hx, rfl⟩ := Option.map_eq_some_iff.1 h
  clear h
  unfold AreaForm.parse? AreaForm.parseChars? at hx
  dsimp only at hx
  split at hx
  · split at hx
    · rename_i a ha
      obtain ⟨rfl, -⟩ := Prod.mk.inj (Option.some.inj hx)
      exact ⟨⟨Nat.le_refl _, Nat.le_refl _⟩, Address.onSheet_parseChars ha⟩
    · cases hx
  · simp only [Option.or_eq_some_iff, Option.map_eq_some_iff, Prod.mk.injEq] at hx
    rcases hx with ⟨r, h, rfl, -⟩ | ⟨-, ⟨r, h, rfl, -⟩ | ⟨-, r, h, rfl, -⟩⟩
    · exact onSheet_cellsOf? h
    · exact onSheet_columnsOf? h
    · exact onSheet_rowsOf? h

end Range

namespace Formula

namespace Node

variable {s : Span} {n : Node}

attribute [local simp] nodes nodesOfAll nodesOfRows

/-- A reference is to a range that sheets can have; no array and no union is empty. -/
def IsFormed : Node → Prop
  | reference _ _ _ r => r.OnSheet
  | array _ rows => rows ≠ [] ∧ ∀ row ∈ rows, row ≠ []
  | union _ items => items ≠ []
  | _ => True

/-- All nodes of the tree are formed like this. -/
def Formed (n : Node) : Prop := ∀ m ∈ n.nodes, m.IsFormed

/-- All references in the tree are to ranges that sheets can have. -/
def OnSheet (n : Node) : Prop := ∀ s book sheet r, reference s book sheet r ∈ n.nodes → r.OnSheet

lemma Formed.onSheet (h : n.Formed) : n.OnSheet := fun _ _ _ _ hr => h _ hr

lemma formed_reference {book sheet : Option String} {r : Range} (h : r.OnSheet) :
    (reference s book sheet r).Formed := by simpa [Formed, IsFormed] using h

lemma formed_invalid (p : Problem) : (invalid s p).Formed := by simp [Formed, IsFormed]

lemma formed_missing : (missing s).Formed := by simp [Formed, IsFormed]

lemma formed_unary {op : UnaryOp} (h : n.Formed) : (unary s op n).Formed := List.forall_mem_cons.2 ⟨trivial, h⟩

lemma formed_binary {op : BinaryOp} {l r : Node} (hl : l.Formed) (hr : r.Formed) : (binary s op l r).Formed :=
  List.forall_mem_cons.2 ⟨trivial, List.forall_mem_append.2 ⟨hl, hr⟩⟩

lemma mem_nodesOfAll {m : Node} {ns : List Node} : m ∈ nodesOfAll ns ↔ ∃ n ∈ ns, m ∈ n.nodes := by
  induction ns with
  | nil => simp
  | cons n ns ih => simp [ih]

lemma mem_nodesOfRows {m : Node} {rows : List (List Node)} :
    m ∈ nodesOfRows rows ↔ ∃ row ∈ rows, ∃ n ∈ row, m ∈ n.nodes := by
  induction rows with
  | nil => simp
  | cons row rows ih => simp [ih, mem_nodesOfAll]

lemma forall_mem_nodesOfAll {ns : List Node} (h : ∀ n ∈ ns, n.Formed) : ∀ m ∈ nodesOfAll ns, m.IsFormed := by
  intro m hm
  obtain ⟨n, hn, hm⟩ := mem_nodesOfAll.1 hm
  exact h n hn m hm

lemma formed_call {f : String} {args : List Node} (h : ∀ n ∈ args, n.Formed) : (call s f args).Formed :=
  List.forall_mem_cons.2 ⟨trivial, forall_mem_nodesOfAll h⟩

lemma formed_union {items : List Node} (hne : items ≠ []) (h : ∀ n ∈ items, n.Formed) : (union s items).Formed :=
  List.forall_mem_cons.2 ⟨hne, forall_mem_nodesOfAll h⟩

lemma formed_array {rows : List (List Node)} (hne : rows ≠ []) (hrows : ∀ row ∈ rows, row ≠ [])
    (h : ∀ row ∈ rows, ∀ n ∈ row, n.Formed) : (array s rows).Formed := by
  refine List.forall_mem_cons.2 ⟨⟨hne, hrows⟩, fun m hm => ?_⟩
  obtain ⟨row, hrow, n, hn, hm⟩ := mem_nodesOfRows.1 hm
  exact h row hrow n hn m hm

end Node

namespace Parse

open Node

variable {b : Binder} {inner : ExprParser}

lemma formed_reference (r : ReferenceToken) (s : Span) : (reference b r s).Formed := by
  unfold reference
  split
  · exact formed_invalid _
  · rename_i h _
    exact Node.formed_reference (Range.onSheet_ofArea? h)
  · rename_i h _
    dsimp only
    split
    · exact formed_invalid _
    · split
      · exact Node.formed_reference (Range.onSheet_ofArea? h)
      · exact formed_invalid _

lemma split_ne_nil (isSeparator : Token → Bool) (outer : Span) (nodes : List TokenTree) :
    split isSeparator outer nodes ≠ [] := by
  unfold split
  fun_induction splitFrom isSeparator outer.stop (outer.start + 1) [] nodes <;> simp_all

/-! Whatever is made with a parser of expressions is right if its expressions are. -/

variable (h : ∀ precedence stop nodes, (inner precedence stop nodes).1.Formed)

include h

lemma formed_sequence (nodes : List TokenTree) (span : Span) : (sequence inner nodes span).Formed := by
  have hfirst := h 0 span.stop nodes
  unfold sequence
  split
  · rename_i hx
    rwa [hx] at hfirst
  · exact formed_invalid _

lemma formed_stretches {empty : Span → Node} (he : ∀ s, (empty s).Formed) (parts : List (List TokenTree × Span)) :
    ∀ n ∈ stretches inner empty parts, n.Formed := by
  intro n hn
  obtain ⟨⟨nodes, span⟩, _, rfl⟩ := List.mem_map.1 hn
  dsimp only
  split
  · exact he span
  · exact formed_sequence h nodes span

lemma formed_array (children : List TokenTree) (span : Span) : (array inner children span).Formed := by
  unfold array
  dsimp only
  split
  · exact formed_invalid _
  · split
    · exact formed_invalid _
    · refine Node.formed_array (by simp [split_ne_nil]) (fun row hrow => ?_) fun row hrow => ?_
      · obtain ⟨parts, hparts, rfl⟩ := List.mem_map.1 hrow
        obtain ⟨_, -, rfl⟩ := List.mem_map.1 hparts
        simp [stretches, split_ne_nil]
      · obtain ⟨parts, _, rfl⟩ := List.mem_map.1 hrow
        exact formed_stretches h (fun _ => formed_missing) parts

lemma formed_parentheses (children : List TokenTree) (span : Span) :
    (parentheses inner children span).Formed := by
  unfold parentheses
  split
  · split
    · exact formed_invalid _
    · exact formed_sequence h _ _
  · exact Node.formed_union (by simp [stretches, split_ne_nil]) (formed_stretches h (fun _ => formed_invalid _) _)

lemma formed_group (kind : GroupKind) (children : List TokenTree) (span : Span) (closed : Bool) :
    (group inner kind children span closed).Formed := by
  unfold group
  split
  · exact formed_invalid _
  · cases kind with
    | paren => exact formed_parentheses h children span
    | brace => exact formed_array h children span
    | bracket => exact formed_invalid _

lemma formed_call (f : String) (children : List TokenTree) (nameSpan span : Span) (closed : Bool) :
    (call inner f children nameSpan span closed).Formed := by
  unfold call
  dsimp only
  split
  · exact formed_invalid _
  · split
    · exact Node.formed_call (by simp)
    · exact Node.formed_call (formed_stretches h (fun _ => formed_missing) _)

lemma formed_operand (stop : Nat) (nodes : List TokenTree) : (operand b inner stop nodes).1.Formed := by
  have hleaf : ∀ s l, (literal s l).Formed := fun s l => by simp [Formed, IsFormed, Node.nodes]
  have hname : ∀ s x, (name s x).Formed := fun s x => by simp [Formed, IsFormed, Node.nodes]
  unfold operand
  split
  · exact formed_invalid _
  · exact formed_group h _ _ _ _
  · exact formed_invalid _
  · split
    · exact Node.formed_unary (h _ _ _)
    · exact h _ _ _
    · exact hleaf _ _
    · exact hleaf _ _
    · exact hleaf _ _
    · exact hleaf _ _
    · exact formed_reference _ _
    · exact hname _ _
    · split
      · exact formed_call h _ _ _ _ _
      · exact formed_invalid _
    all_goals exact formed_invalid _

lemma formed_climb (precedence stop fuel : Nat) {left : Node} (rest : List TokenTree) (hl : left.Formed) :
    (climb inner precedence stop fuel left rest).1.Formed := by
  fun_induction climb inner precedence stop fuel left rest with
  | case1 => exact hl
  | case2 => exact hl
  | case3 _ _ _ _ _ _ _ ih => exact ih (Node.formed_unary hl)
  | case4 => exact hl
  | case5 _ _ _ _ rest op _ _ right _ hx ih =>
    have hright := h (op.precedence + 1) stop rest
    rw [hx] at hright
    exact ih (Node.formed_binary hl hright)
  | case6 => exact hl

omit h

lemma formed_expression (nesting : Nat) : ∀ precedence stop nodes,
    (expression b nesting precedence stop nodes).1.Formed := by
  induction nesting with
  | zero => exact fun _ _ _ => formed_invalid _
  | succ nesting ih =>
    intro precedence stop nodes
    exact formed_climb ih precedence stop _ _ (formed_operand ih stop nodes)

lemma formed_check {n : Node} (h : n.Formed) (whole : Span) : (check whole n).Formed := by
  unfold check
  split
  · exact formed_invalid _
  · split
    · split
      · exact h
      · exact formed_invalid _
    · exact h

end Parse

theorem Node.formed_parse (b : Binder) (s : String) (o : Separators) : (Node.parse b s o).Formed :=
  Parse.formed_check (Parse.formed_sequence (Parse.formed_expression _) _ _) _

theorem Node.onSheet_parse (b : Binder) (s : String) (o : Separators) : (Node.parse b s o).OnSheet :=
  (Node.formed_parse b s o).onSheet

end Formula

end Spreadsheet
