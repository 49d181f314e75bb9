import Spreadsheet.Proofs.Function.Builtin

/-! Functions that make no references but out of those they are given as references. -/

namespace Spreadsheet

open Text

namespace Value

/-- Without a reference or a handle, at any depth. -/
inductive Closed : Value → Prop
  | item {v : Value} (h : v.IsItem) : Closed v
  | array {g : Grid Value} (h : ∀ v ∈ g.items, Closed v) : Closed (.array g)

variable {v : Value} {g : Grid Value} {refs : List Region}

lemma IsFlat.closed (h : v.IsFlat) : v.Closed := by
  cases v with
  | array g => exact .array fun v hv => .item (h.2 v hv)
  | reference | pending => exact h.elim
  | _ => exact .item trivial

lemma Closed.items (h : (Value.array g).Closed) : ∀ v ∈ g.items, v.Closed := by
  cases h with
  | item h => exact h.elim
  | array h => exact h

lemma Closed.isPending_eq (h : v.Closed) : v.isPending = false := by
  cases h with
  | item h => exact h.isFlat.isPending_eq
  | array h => rfl

lemma Closed.topLeft (h : v.Closed) : v.topLeft.Closed := by
  cases h with
  | item h => exact h.isFlat.isItem_topLeft.isFlat.closed
  | @array g h =>
    obtain ⟨rows, cols, items⟩ := g
    cases items with
    | nil => exact .item trivial
    | cons v items => exact h v List.mem_cons_self

lemma applyUnaryAll_eq (op : UnaryOp) (items : List Value) :
    applyUnaryAll op items = items.map (Value.applyUnary op) := by
  induction items with
  | nil => rfl
  | cons v vs ih => rw [applyUnaryAll, ih, List.map_cons]

lemma Closed.applyUnary (op : UnaryOp) (h : v.Closed) : (v.applyUnary op).Closed := by
  induction h with
  | item h => exact (h.applyUnary op).isFlat.closed
  | @array g _ ih =>
    obtain ⟨rows, cols, items⟩ := g
    rw [Value.applyUnary, applyUnaryAll_eq]
    apply Closed.array
    intro w hw
    obtain ⟨u, hu, rfl⟩ := List.mem_map.1 hw
    exact ih u hu

lemma closed_ofRows {rows : List (List Value)} {fill : Value} (h : ∀ row ∈ rows, ∀ v ∈ row, v.Closed)
    (hf : fill.IsItem) : (array (Grid.ofRows rows fill)).Closed := by
  apply Closed.array
  intro v hv
  simp only [Grid.ofRows, List.mem_flatMap, List.mem_append, List.mem_replicate] at hv
  obtain ⟨row, hrow, hv | ⟨-, rfl⟩⟩ := hv
  · exact h row hrow v hv
  · exact .item hf

/-- A closed value, or a reference inside one of the given regions. -/
def Covered (refs : List Region) (v : Value) : Prop := v.Closed ∨ ∃ r, v = .reference r ∧ ∃ s ∈ refs, r.Inside s

lemma Covered.isPending_eq (h : v.Covered refs) : v.isPending = false := by
  rcases h with h | ⟨r, rfl, -⟩
  · exact h.isPending_eq
  · rfl

end Value

/-- What an argument can be once it is prepared. -/
def ArgumentRule.Fits (refs : List Region) (v : Value) : ArgumentRule → Prop
  | .reference | .referenceOrArray => v.Covered refs
  | .any | .scalar | .number | .raw => v.Closed

lemma ArgumentRule.Fits.covered {refs : List Region} {v : Value} {rule : ArgumentRule} (h : rule.Fits refs v) :
    v.Covered refs := by
  cases rule with
  | reference | referenceOrArray => exact h
  | _ => exact Or.inl h

namespace Function

open Value

variable {args : List Value} {refs : List Region}

lemma closed_test (holds : Value → Bool) (args : List Value) : (test holds args).Closed := by
  unfold test
  split
  · apply Closed.array
    intro v hv
    obtain ⟨w, -, rfl⟩ := List.mem_map.1 hv
    exact .item trivial
  · exact .item trivial

lemma closed_replaceErrors (replaced : ErrorValue → Bool) (h : ∀ v ∈ args, v.Closed) :
    (replaceErrors replaced args).Closed := by
  have harg : ∀ i, (arg args i).Closed := arg_of (.item trivial) h
  unfold replaceErrors
  extract_lets replace
  have hreplace : ∀ v : Value, v.Closed → (replace v).Closed := by
    intro v hv
    simp only [replace]
    split
    · split
      · exact harg 1
      · exact hv
    · exact hv
  split
  · rename_i g hg
    have hitems := harg 0
    rw [hg] at hitems
    apply Closed.array
    intro v hv
    obtain ⟨w, hw, rfl⟩ := List.mem_map.1 hv
    exact hreplace w (hitems.items w hw)
  · exact hreplace _ (harg 0)

lemma part_covered {v : Value} (h : v.Covered refs) {size : Nat × Nat} {rows cols : Nat × Nat}
    (hv : shape? v = some size) (hr : rows.1 ≤ rows.2 ∧ rows.2 < size.1) (hc : cols.1 ≤ cols.2 ∧ cols.2 < size.2) :
    (part v rows cols).Covered refs := by
  rcases h with h | ⟨r, rfl, s, hs, hin⟩
  · apply Or.inl
    cases v with
    | array g =>
      have hitem := lookup_of (fun _ h => .item h) h.items
      simp only [part]
      split
      · exact hitem _ _
      · apply Closed.array
        intro v hv
        simp only [Grid.build, List.mem_flatMap, List.mem_map] at hv
        obtain ⟨i, -, j, -, rfl⟩ := hv
        exact hitem _ _
    | reference =>
      cases h with
      | item h => exact h.elim
    | _ => cases hv
  · obtain rfl := Option.some.inj hv
    obtain ⟨t, ht, hin⟩ := part_inside hin hr hc
    exact Or.inr ⟨t, ht, s, hs, hin⟩

end Function

namespace FunctionDef

open Spreadsheet.Function

/-- The function answers at once, and what it answers refers to nothing but parts of the references given. -/
structure Sealed (f : FunctionDef) : Prop where
  run_eq : ∀ args site, f.run args site = .answer (f.answer args site.place)
  covered : ∀ refs args p, (∀ i v, args[i]? = some v → (f.rules.rule i).Fits refs v) → (f.answer args p).Covered refs

variable {f : FunctionDef}

lemma Flat.sealed (h : f.Flat) : f.Sealed := ⟨h.run_eq, fun _ args p _ => Or.inl (h.flat args p).closed⟩

lemma sealed_of_closed (g : List Value → Value) (h : f.run = Function.pure g)
    (hrule : ∀ i, f.rules.rule i ≠ .reference ∧ f.rules.rule i ≠ .referenceOrArray)
    (hg : ∀ args, (∀ v ∈ args, v.Closed) → (g args).Closed) : f.Sealed where
  run_eq := run_eq_of_pure h
  covered refs args p hargs := by
    rw [answer_of_pure h]
    apply Or.inl
    apply hg
    intro v hv
    obtain ⟨i, hi⟩ := List.mem_iff_getElem?.1 hv
    have hfits := hargs i v hi
    have hi := hrule i
    cases hr : f.rules.rule i <;> simp_all [ArgumentRule.Fits]

lemma takesValues_of_forall {rules : List ArgumentRule} (h : ∀ r ∈ rules, r ≠ .reference ∧ r ≠ .referenceOrArray)
    (i : Nat) : (ArgumentRules.perArgument rules).rule i ≠ .reference ∧
      (ArgumentRules.perArgument rules).rule i ≠ .referenceOrArray := by
  simp only [ArgumentRules.rule]
  cases hi : rules[i]? with
  | some r => exact h r (List.mem_of_getElem? hi)
  | none =>
    cases hl : rules.getLast? with
    | none => decide
    | some r => exact h r (List.mem_of_getLast? hl)

lemma sealed_of_index (h : f.run = Function.pure index) : f.Sealed where
  run_eq := run_eq_of_pure h
  covered refs args p hargs := by
    rw [answer_of_pure h]
    refine index_of (fun v hv => Or.inl (.item hv)) fun _ _ _ hs hr hc => part_covered ?_ hs hr hc
    unfold arg
    cases h0 : args[0]? with
    | none => exact Or.inl (.item trivial)
    | some v => exact (hargs 0 v h0).covered

lemma sealed_lookup : ∀ f ∈ lookupFunctions, f.Sealed := by
  simp only [lookupFunctions, List.forall_mem_cons, List.not_mem_nil, false_implies, implies_true, and_true]
  refine ⟨(single_of_pure _ rfl (isItem_extent _)).flat.sealed, (single_of_pure _ rfl (isItem_extent _)).flat.sealed,
    (single_ordinal rfl).flat.sealed, (single_ordinal rfl).flat.sealed, sealed_of_index rfl, ?_⟩
  exact sealed_of_closed _ rfl (takesValues_of_forall (by decide)) fun _ => pick_of fun _ => .item

lemma sealed_logic (f : FunctionDef) (hf : f ∈ logicFunctions) : f.Sealed := by
  by_cases hflat : f.name ≠ "IF" ∧ f.name ≠ "IFERROR" ∧ f.name ≠ "IFNA"
  · exact (single_connectives f hf hflat.1 hflat.2.1 hflat.2.2).flat.sealed
  · simp only [logicFunctions, List.mem_cons, List.not_mem_nil, or_false] at hf
    rcases hf with rfl | rfl | rfl | rfl | rfl | rfl | rfl | rfl
    case inl => exact sealed_of_closed _ rfl (takesValues_of_forall (by decide)) fun _ => choose_of fun _ => .item
    case inr.inr.inr.inr.inl | inr.inr.inr.inr.inr.inl =>
      exact sealed_of_closed _ rfl (takesValues_of_forall (by decide)) fun _ => closed_replaceErrors _
    all_goals simp at hflat

lemma sealed_info : ∀ f ∈ infoFunctions, f.Sealed := by
  simp only [infoFunctions, List.forall_mem_cons, List.not_mem_nil, false_implies, implies_true, and_true]
  refine ⟨?_, ?_, ?_, ?_, ?_, ?_, ?_, ?_, ?_⟩
  case refine_8 => exact Flat.sealed (Single.flat (single_of_pure _ rfl fun _ => trivial))
  case refine_9 => exact (single_of_pure _ rfl isItem_errorType).flat.sealed
  all_goals exact sealed_of_closed _ rfl (takesValues_of_forall (by decide)) fun args _ => closed_test _ args

end FunctionDef

lemma Registry.sealed_of_find? {name : String} {f : FunctionDef} (h : builtin.find? name = some f)
    (hv : f.volatile = false) : f.Sealed := by
  have hf := (mem_of_getElem?_builtin h).1
  simp only [List.mem_append, or_assoc] at hf
  rcases hf with hf | hf | hf | hf | hf | hf
  · exact FunctionDef.sealed_lookup f hf
  · exact (FunctionDef.flat_math f hf hv).sealed
  · exact FunctionDef.sealed_logic f hf
  · exact FunctionDef.sealed_info f hf
  · exact (FunctionDef.single_text f hf).flat.sealed
  · rw [FunctionDef.volatile_dates f hf] at hv
    cases hv

end Spreadsheet
