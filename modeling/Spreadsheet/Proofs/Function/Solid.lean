import Spreadsheet.Proofs.Evaluation.Spill
import Spreadsheet.Proofs.Function.Sealed

/-! What operators and functions make of full arrays. Only the functions that replace errors put one of their arguments
into another one, and so make arrays of arrays. -/

namespace Spreadsheet

open Text

namespace Value

variable {nested : Prop} {v w : Value} {g h : Grid Value}

/-- An item, or a full array, not empty, of such values; of items alone where arrays are not nested. -/
inductive Solid (nested : Prop) : Value → Prop
  | item {v : Value} (h : v.IsItem) : Solid nested v
  | array {g : Grid Value} (hregular : g.Regular) (hpos : 0 < g.size) (hitems : ∀ v ∈ g.items, Solid nested v)
      (hflat : nested ∨ ∀ v ∈ g.items, v.IsItem) : Solid nested (.array g)

/-- What can stand in an array. -/
def Inner (nested : Prop) (v : Value) : Prop := v.Solid nested ∧ (nested ∨ v.IsItem)

lemma IsItem.inner (h : v.IsItem) : v.Inner nested := ⟨.item h, Or.inr h⟩

lemma solid_array (hregular : g.Regular) (hpos : 0 < g.size) (hitems : ∀ v ∈ g.items, v.Inner nested) :
    (Value.array g).Solid nested := by
  refine .array hregular hpos (fun v hv => (hitems v hv).1) ?_
  by_cases hn : nested
  · exact Or.inl hn
  · exact Or.inr fun v hv => (hitems v hv).2.resolve_left hn

namespace Solid

lemma full (hg : (Value.array g).Solid nested) : g.Regular ∧ 0 < g.size ∧ ∀ v ∈ g.items, v.Inner nested := by
  cases hg with
  | item h => exact h.elim
  | array hregular hpos hitems hflat =>
    exact ⟨hregular, hpos, fun v hv => ⟨hitems v hv, hflat.imp_right fun hflat => hflat v hv⟩⟩

lemma isFlat (h : v.Solid False) : v.IsFlat := by
  cases h with
  | item h => exact h.isFlat
  | array hregular _ _ hflat => exact ⟨hregular, hflat.resolve_left id⟩

lemma not_reference {r : Region} (h : (Value.reference r).Solid nested) : False := by
  cases h with
  | item h => exact h

lemma isPending_eq (h : v.Solid nested) : v.isPending = false := by
  cases h with
  | item h => exact h.isFlat.isPending_eq
  | array => rfl

lemma topLeft (hv : v.Solid nested) : v.topLeft.Inner nested := by
  cases v with
  | array g =>
    obtain ⟨rows, cols, items⟩ := g
    cases items with
    | nil => exact IsItem.inner trivial
    | cons v items => exact (full hv).2.2 v List.mem_cons_self
  | reference | pending => cases hv with | item h => exact h.elim
  | _ => exact IsItem.inner trivial

end Solid

lemma solid_build {rows cols : Nat} {f : Nat → Nat → Value} (hrows : 0 < rows) (hcols : 0 < cols)
    (hf : ∀ i j, (f i j).Inner nested) : (Value.array (Grid.build rows cols f)).Solid nested := by
  have hregular := Grid.regular_build rows cols f
  refine solid_array hregular ?_ fun v hv => ?_
  · rw [Grid.size, hregular]
    exact Nat.mul_pos hrows hcols
  · simp only [Grid.build, List.mem_flatMap, List.mem_map] at hv
    obtain ⟨i, -, j, -, rfl⟩ := hv
    exact hf i j

lemma solid_map (hg : (Value.array g).Solid nested) {f : Value → Value} (hf : ∀ v ∈ g.items, (f v).Inner nested) :
    (Value.array (g.map f)).Solid nested := by
  obtain ⟨hregular, hpos, -⟩ := hg.full
  refine solid_array (hregular.map f) (by simpa [Grid.size, Grid.map] using hpos) fun v hv => ?_
  obtain ⟨w, hw, rfl⟩ := List.mem_map.1 hv
  exact hf w hw

lemma solid_single (h : v.Inner nested) : (Value.array (Grid.single v)).Solid nested :=
  solid_array (Grid.regular_single v) Nat.one_pos (by simpa [Grid.single] using h)

/-! Operators. -/

lemma Solid.applyUnary (op : UnaryOp) (h : v.Solid nested) : (v.applyUnary op).Solid nested := by
  induction h with
  | item h => exact .item (h.applyUnary op)
  | @array g hregular hpos hitems hflat ih =>
    obtain ⟨rows, cols, items⟩ := g
    rw [Value.applyUnary, applyUnaryAll_eq]
    refine solid_map (.array hregular hpos hitems hflat) fun v hv => ⟨ih v hv, ?_⟩
    exact hflat.imp_right fun hflat => (hflat v hv).applyUnary op

lemma solid_broadcast (op : BinaryOp) (hg : (Value.array g).Solid nested) : (broadcast op g h).Solid nested := by
  obtain ⟨hregular, hpos, -⟩ := hg.full
  obtain ⟨hrows, hcols⟩ := Pass.pos_of_regular hregular hpos
  unfold broadcast
  split
  · exact .item trivial
  · refine solid_build (Nat.lt_of_lt_of_le hrows (Nat.le_max_left _ _)) (Nat.lt_of_lt_of_le hcols (Nat.le_max_left _ _)) ?_
    intro i j
    split
    · exact (isItem_applyScalar op _ _).inner
    · exact IsItem.inner trivial

lemma Solid.applyBinary (op : BinaryOp) (hv : v.Solid nested) (hw : w.Solid nested) :
    (v.applyBinary op w).Solid nested := by
  unfold Value.applyBinary
  split
  · exact solid_broadcast op hv
  · exact solid_broadcast op hv
  · rename_i v g hne
    refine solid_broadcast op (solid_single ⟨hv, ?_⟩)
    cases hv with
    | item h => exact Or.inr h
    | @array g => exact absurd rfl (hne g)
  · exact .item (isItem_applyScalar op _ _)

/-- A solid value, or a reference whose corners are in order. -/
def Ready (nested : Prop) (v : Value) : Prop := v.Solid nested ∨ ∃ r, v = .reference r ∧ r.range.Normal

lemma Solid.ready (h : v.Solid nested) : v.Ready nested := Or.inl h

lemma IsItem.ready (h : v.IsItem) : v.Ready nested := Or.inl (.item h)

lemma Ready.isPending_eq (h : v.Ready nested) : v.isPending = false := by
  rcases h with h | ⟨r, rfl, -⟩
  · exact h.isPending_eq
  · rfl

end Value

/-- What an argument can be once it is prepared. -/
def ArgumentRule.Takes (nested : Prop) (v : Value) : ArgumentRule → Prop
  | .reference | .referenceOrArray => v.Ready nested
  | .any | .scalar | .number | .raw => v.Solid nested

lemma ArgumentRule.Takes.ready {nested : Prop} {v : Value} {rule : ArgumentRule} (h : rule.Takes nested v) :
    v.Ready nested := by
  cases rule with
  | reference | referenceOrArray => exact h
  | _ => exact Or.inl h

namespace Function

open Value

variable {nested : Prop} {args : List Value}

lemma solid_test (holds : Value → Bool) (h : ∀ v ∈ args, v.Solid nested) : (test holds args).Solid nested := by
  have harg : (arg args 0).Solid nested := arg_of (.item trivial) h 0
  unfold test
  split
  · rename_i g hg
    rw [hg] at harg
    exact solid_map harg fun _ _ => IsItem.inner trivial
  · exact .item trivial

lemma solid_replaceErrors (hn : nested) (replaced : ErrorValue → Bool) (h : ∀ v ∈ args, v.Solid nested) :
    (replaceErrors replaced args).Solid nested := by
  have harg : ∀ i, (arg args i).Solid nested := arg_of (.item trivial) h
  unfold replaceErrors
  extract_lets replace
  have hreplace : ∀ v : Value, v.Solid nested → (replace v).Solid nested := by
    intro v hv
    simp only [replace]
    split
    · split
      · exact harg 1
      · exact hv
    · exact hv
  split
  · rename_i g hg
    have hitems := harg 0
    rw [hg] at hitems
    exact solid_map hitems fun v hv => ⟨hreplace v (hitems.full.2.2 v hv).1, Or.inl hn⟩
  · exact hreplace _ (harg 0)

/-- An array in place of the first item is not what a cell can store of it. -/
theorem topLeft_replaceErrors {replaced : ErrorValue → Bool} {e : ErrorValue} (he : replaced e = true) (rows cols : Nat)
    (items : List Value) (g : Grid Value) :
    (replaceErrors replaced [.array ⟨rows, cols, .error e :: items⟩, .array g]).topLeft = .array g := by
  simp [replaceErrors, arg, Grid.map, Value.topLeft, Grid.first?, he]

lemma ready_part {v : Value} (h : v.Ready nested) {size : Nat × Nat} {rows cols : Nat × Nat} (hv : shape? v = some size)
    (hr : rows.1 ≤ rows.2 ∧ rows.2 < size.1) (hc : cols.1 ≤ cols.2 ∧ cols.2 < size.2) :
    (part v rows cols).Ready nested := by
  rcases h with h | ⟨r, rfl, hnormal⟩
  · apply Or.inl
    cases v with
    | array g =>
      have hitem : ∀ i j, ((g.lookup i j).getD (.error .ref)).Inner nested :=
        lookup_of (fun _ => IsItem.inner) h.full.2.2
      simp only [part]
      split
      · exact (hitem _ _).1
      · exact solid_build (Nat.succ_pos _) (Nat.succ_pos _) fun _ _ => hitem _ _
    | reference => exact h.not_reference.elim
    | _ => cases hv
  · obtain rfl := Option.some.inj hv
    obtain ⟨t, ht, hin⟩ := part_inside ⟨rfl, rfl, Range.Inside.refl hnormal⟩ hr hc
    exact Or.inr ⟨t, ht, hin.2.2.1⟩

end Function

namespace FunctionDef

open Spreadsheet.Function Value

/-- The function answers at once and makes solid values of solid values. -/
def Solid (nested : Prop) (f : FunctionDef) : Prop :=
  ∀ args site, (∀ i v, args[i]? = some v → (f.rules.rule i).Takes nested v) → ∃ v, f.run args site = .answer v ∧ v.Ready nested

variable {nested : Prop} {f : FunctionDef}

lemma Single.solid (h : f.Single) : f.Solid nested := fun args site _ => ⟨_, h.run_eq args site, (h.item args site.place).ready⟩

lemma solid_of_takes (g : List Value → Value) (h : f.run = Function.pure g)
    (hg : ∀ args, (∀ i v, args[i]? = some v → (f.rules.rule i).Takes nested v) → (g args).Ready nested) :
    f.Solid nested := fun args site hargs => ⟨g args, by rw [h, Function.pure], hg args hargs⟩

lemma solid_of_values (g : List Value → Value) (h : f.run = Function.pure g)
    (hrule : ∀ i, f.rules.rule i ≠ .reference ∧ f.rules.rule i ≠ .referenceOrArray)
    (hg : ∀ args, (∀ v ∈ args, v.Solid nested) → (g args).Solid nested) : f.Solid nested := by
  refine solid_of_takes g h fun args hargs => (hg args fun v hv => ?_).ready
  obtain ⟨i, hi⟩ := List.mem_iff_getElem?.1 hv
  have htakes := hargs i v hi
  have hi := hrule i
  cases hr : f.rules.rule i <;> simp_all [ArgumentRule.Takes]

lemma solid_lookup : ∀ f ∈ lookupFunctions, f.Solid nested := by
  simp only [lookupFunctions, List.forall_mem_cons, List.not_mem_nil, false_implies, implies_true, and_true]
  refine ⟨(single_of_pure _ rfl (isItem_extent _)).solid, (single_of_pure _ rfl (isItem_extent _)).solid,
    (single_ordinal rfl).solid, (single_ordinal rfl).solid, ?_, ?_⟩
  · refine solid_of_takes _ rfl fun args hargs => index_of (fun _ => IsItem.ready) fun _ _ _ => ready_part ?_
    unfold arg
    cases h0 : args[0]? with
    | none => exact IsItem.ready trivial
    | some v => exact (hargs 0 v h0).ready
  · exact solid_of_values _ rfl (takesValues_of_forall (by decide)) fun _ => pick_of fun _ => .item

lemma solid_math (f : FunctionDef) (hf : f ∈ mathFunctions) : f.Solid nested := by
  by_cases hv : f.volatile = false
  · by_cases hpower : f.name = "POWER"
    · have hnumbers : ∀ f ∈ mathFunctions, f.name = "POWER" → f.rules = .perArgument [.number] := by simp [mathFunctions]
      refine solid_of_values _ (run_power f hf hpower) ?_ fun args hargs => ?_
      · rw [hnumbers f hf hpower]
        exact takesValues_of_forall (by decide)
      · have harg : ∀ i, (arg args i).Solid nested := arg_of (.item trivial) hargs
        exact (harg 0).applyBinary _ (harg 1)
    · exact (single_math f hf hv hpower).solid
  · have hrandom : ∀ f ∈ mathFunctions, f.volatile ≠ false → f.run = random ∨ f.run = randomBetween := by
      simp [mathFunctions]
    intro args site _
    rcases hrandom f hf hv with h | h
    · exact ⟨.number _, by rw [h, random], IsItem.ready trivial⟩
    · refine ⟨_, by rw [h, randomBetween], IsItem.ready ?_⟩
      refine isItem_ofExcept_bind fun _ => isItem_ofExcept_bind fun _ => isItem_ofExcept_pure ?_
      split <;> trivial

/-- The functions that replace errors nest arrays. -/
lemma solid_logic (f : FunctionDef) (hf : f ∈ logicFunctions) (hn : nested ∨ f.name ≠ "IFERROR" ∧ f.name ≠ "IFNA") :
    f.Solid nested := by
  by_cases hsingle : f.name ≠ "IF" ∧ f.name ≠ "IFERROR" ∧ f.name ≠ "IFNA"
  · exact (single_connectives f hf hsingle.1 hsingle.2.1 hsingle.2.2).solid
  · simp only [logicFunctions, List.mem_cons, List.not_mem_nil, or_false] at hf
    rcases hf with rfl | rfl | rfl | rfl | rfl | rfl | rfl | rfl
    case inl => exact solid_of_values _ rfl (takesValues_of_forall (by decide)) fun _ => choose_of fun _ => .item
    case inr.inr.inr.inr.inl | inr.inr.inr.inr.inr.inl =>
      have hn : nested := hn.resolve_right (by simp)
      exact solid_of_values _ rfl (takesValues_of_forall (by decide)) fun _ => solid_replaceErrors hn _
    all_goals simp at hsingle

lemma solid_info : ∀ f ∈ infoFunctions, f.Solid nested := by
  simp only [infoFunctions, List.forall_mem_cons, List.not_mem_nil, false_implies, implies_true, and_true]
  refine ⟨?_, ?_, ?_, ?_, ?_, ?_, ?_, ?_, ?_⟩
  case refine_8 => exact Single.solid (single_of_pure _ rfl fun _ => trivial)
  case refine_9 => exact (single_of_pure _ rfl isItem_errorType).solid
  all_goals exact solid_of_values _ rfl (takesValues_of_forall (by decide)) fun _ => solid_test _

lemma solid_dates : ∀ f ∈ dateFunctions, f.Solid nested := by
  simp only [dateFunctions, List.forall_mem_cons, List.not_mem_nil, false_implies, implies_true, and_true]
  exact ⟨fun _ _ _ => ⟨_, rfl, IsItem.ready trivial⟩, fun _ _ _ => ⟨_, rfl, IsItem.ready trivial⟩⟩

end FunctionDef

/-- All functions but those that replace errors make flat values of flat values. -/
theorem Registry.solid_of_find? {nested : Prop} {name : String} {f : FunctionDef} (h : builtin.find? name = some f)
    (hn : nested ∨ upper name ≠ "IFERROR" ∧ upper name ≠ "IFNA") : f.Solid nested := by
  obtain ⟨hf, hname⟩ := mem_of_getElem?_builtin h
  simp only [List.mem_append, or_assoc] at hf
  rcases hf with hf | hf | hf | hf | hf | hf
  · exact FunctionDef.solid_lookup f hf
  · exact FunctionDef.solid_math f hf
  · refine FunctionDef.solid_logic f hf (hn.imp_right fun ⟨he, hn⟩ => ⟨fun hfe => he ?_, fun hfn => hn ?_⟩)
    · rw [← hname, hfe]
      decide +kernel
    · rw [← hname, hfn]
      decide +kernel
  · exact FunctionDef.solid_info f hf
  · exact (FunctionDef.single_text f hf).solid
  · exact FunctionDef.solid_dates f hf

end Spreadsheet
