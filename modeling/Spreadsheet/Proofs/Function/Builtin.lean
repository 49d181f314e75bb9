import Spreadsheet.Function.Builtin
import Spreadsheet.Proofs.Value

/-! Functions that answer at once, from their arguments and the place of the call alone. -/

namespace Spreadsheet

open Text

namespace FunctionDef

def answer (f : FunctionDef) (args : List Value) (p : Place) : Value :=
  match f.run args { place := p, rowCount := 0, colCount := 0 } with
  | .answer v => v
  | _ => .error .calculation

structure Steady (f : FunctionDef) : Prop where
  run_eq : ∀ args site, f.run args site = .answer (f.answer args site.place)
  within : ∀ refs args p, (∀ v ∈ args, v.Within refs) → (f.answer args p).Within refs

/-- What the function answers is flat, whatever it is called with. -/
structure Flat (f : FunctionDef) : Prop where
  run_eq : ∀ args site, f.run args site = .answer (f.answer args site.place)
  flat : ∀ args p, (f.answer args p).IsFlat

/-- It is an item. -/
structure Single (f : FunctionDef) : Prop where
  run_eq : ∀ args site, f.run args site = .answer (f.answer args site.place)
  item : ∀ args p, (f.answer args p).IsItem

variable {f : FunctionDef}

lemma Single.flat (h : f.Single) : f.Flat := ⟨h.run_eq, fun args p => (h.item args p).isFlat⟩

lemma Flat.steady (h : f.Flat) : f.Steady := ⟨h.run_eq, fun _ args p _ => Or.inl (h.flat args p)⟩

lemma run_eq_of_pure {g : List Value → Value} (h : f.run = Function.pure g) (args : List Value) (site : CallSite) :
    f.run args site = .answer (f.answer args site.place) := by
  simp only [answer, h, Function.pure]

lemma answer_of_pure {g : List Value → Value} (h : f.run = Function.pure g) (args : List Value) (p : Place) :
    f.answer args p = g args := by
  simp only [answer, h, Function.pure]

lemma steady_of_pure (g : List Value → Value) (h : f.run = Function.pure g)
    (hg : ∀ refs args, (∀ v ∈ args, v.Within refs) → (g args).Within refs) : f.Steady where
  run_eq := run_eq_of_pure h
  within refs args p hargs := by
    rw [answer_of_pure h]
    exact hg refs args hargs

lemma flat_of_pure (g : List Value → Value) (h : f.run = Function.pure g) (hg : ∀ args, (g args).IsFlat) : f.Flat where
  run_eq := run_eq_of_pure h
  flat args p := by
    rw [answer_of_pure h]
    exact hg args

lemma single_of_pure (g : List Value → Value) (h : f.run = Function.pure g) (hg : ∀ args, (g args).IsItem) : f.Single where
  run_eq := run_eq_of_pure h
  item args p := by
    rw [answer_of_pure h]
    exact hg args

lemma single_ordinal {ofStart : Address → Nat} {ofPlace : Place → Nat} (h : f.run = Function.ordinal ofStart ofPlace) :
    f.Single where
  run_eq args site := by
    simp only [answer, h, Function.ordinal]
  item args p := by
    simp only [answer, h, Function.ordinal]
    rcases args with _ | ⟨v, _⟩
    · trivial
    · cases v <;> trivial

end FunctionDef

namespace Function

open Value

/-! Arguments. -/

variable {P : Value → Prop} {args : List Value}

lemma getD_of (h : ∀ v ∈ args, P v) (i : Nat) {d : Value} (hd : P d) : P (args[i]?.getD d) := by
  cases hi : args[i]? with
  | none => exact hd
  | some v => exact h v (List.mem_of_getElem? hi)

lemma arg_of (hblank : P .blank) (h : ∀ v ∈ args, P v) (i : Nat) : P (arg args i) := getD_of h i hblank

lemma choose_of (hitem : ∀ v, v.IsItem → P v) (h : ∀ v ∈ args, P v) : P (choose args) := by
  unfold choose
  split
  · exact hitem _ trivial
  · split
    · exact hitem _ trivial
    · exact getD_of h 1 (hitem _ trivial)
    · exact getD_of h 2 (hitem _ trivial)

lemma pick_of (hitem : ∀ v, v.IsItem → P v) (h : ∀ v ∈ args, P v) : P (pick args) := by
  unfold pick
  cases numberArg args 0 with
  | error e => exact hitem _ trivial
  | ok x =>
    change P (ite _ _ _)
    split
    · exact hitem _ trivial
    · exact arg_of (hitem _ trivial) h _

lemma selected_le {index : Int} {size : Nat} (hs : size ≠ 0) (h : index ≤ size) :
    (selected index size).1 ≤ (selected index size).2 ∧ (selected index size).2 < size := by
  unfold selected
  split <;> constructor <;> simp only <;> omega

lemma index_of (hitem : ∀ v, v.IsItem → P v)
    (hpart : ∀ size rows cols, shape? (arg args 0) = some size → rows.1 ≤ rows.2 ∧ rows.2 < size.1 →
      cols.1 ≤ cols.2 ∧ cols.2 < size.2 → P (part (arg args 0) rows cols)) : P (index args) := by
  unfold index
  cases hs : shape? (arg args 0) with
  | none => exact hitem _ trivial
  | some size =>
    obtain ⟨rows, cols⟩ := size
    simp only
    split
    · exact hitem _ trivial
    · rename_i hz
      rw [not_or] at hz
      have hselect : ∀ row col : Int, P (if row < 0 ∨ col < 0 then .error .value
          else if rows < row ∨ cols < col then .error .ref
          else part (arg args 0) (selected row rows) (selected col cols)) := by
        intro row col
        split
        · exact hitem _ trivial
        · split
          · exact hitem _ trivial
          · rename_i hle
            rw [not_or, Int.not_lt, Int.not_lt] at hle
            exact hpart _ _ _ hs (selected_le hz.1 hle.1) (selected_le hz.2 hle.2)
      cases numberArg args 1 with
      | error e => exact hitem _ trivial
      | ok x =>
        cases numberArg args 2 with
        | error e => exact hitem _ trivial
        | ok y => exact hselect _ _

/-! Items. -/

lemma isItem_extent (side : Nat × Nat → Nat) (args : List Value) : (extent side args).IsItem := by
  cases args <;> trivial

lemma isItem_ofNumber (f : Float → Float) (args : List Value) : (ofNumber f args).IsItem :=
  isItem_ofExcept_bind fun _ => isItem_ofExcept_pure (isItem_ofFinite _)

lemma isItem_sum (args : List Value) : (sum args).IsItem :=
  isItem_ofExcept_bind fun _ => isItem_ofExcept_pure trivial

lemma isItem_average (args : List Value) : (average args).IsItem :=
  isItem_ofExcept_bind fun xs => isItem_ofExcept_pure (by split <;> trivial)

lemma isItem_reduce (f : Float → Float → Float) (args : List Value) : (reduce f args).IsItem :=
  isItem_ofExcept_bind fun _ => isItem_ofExcept_pure trivial

lemma isItem_product (args : List Value) : (product args).IsItem :=
  isItem_ofExcept_bind fun _ => isItem_ofExcept_pure trivial

lemma isItem_round (args : List Value) : (round args).IsItem :=
  isItem_ofExcept_bind fun _ => isItem_ofExcept_bind fun _ => isItem_ofExcept_pure (isItem_ofFinite _)

lemma isItem_modulo (args : List Value) : (modulo args).IsItem :=
  isItem_ofExcept_bind fun _ => isItem_ofExcept_bind fun _ => isItem_ofExcept_pure (by
    split
    · trivial
    · exact isItem_ofFinite _)

lemma isItem_squareRoot (args : List Value) : (squareRoot args).IsItem :=
  isItem_ofExcept_bind fun _ => isItem_ofExcept_pure (by split <;> trivial)

lemma isItem_connective (f : List Bool → Bool) (args : List Value) : (connective f args).IsItem :=
  isItem_ofExcept_bind fun _ => isItem_ofExcept_pure (by split <;> trivial)

lemma isItem_negation (args : List Value) : (negation args).IsItem := by
  unfold negation
  split
  · trivial
  · split <;> trivial

lemma isItem_errorType (args : List Value) : (errorType args).IsItem := by
  unfold errorType
  split <;> trivial

lemma isItem_ofText {f : String → Value} (hf : ∀ s, (f s).IsItem) (args : List Value) : (ofText f args).IsItem :=
  isItem_ofExcept_bind fun s => isItem_ofExcept_pure (hf s)

lemma isItem_left (args : List Value) : (left args).IsItem :=
  isItem_ofExcept_bind fun _ => isItem_ofExcept_bind fun _ => isItem_ofExcept_pure trivial

lemma isItem_right (args : List Value) : (right args).IsItem :=
  isItem_ofExcept_bind fun _ => isItem_ofExcept_bind fun _ => isItem_ofExcept_pure trivial

lemma isItem_middle (args : List Value) : (middle args).IsItem := by
  refine isItem_ofExcept_bind fun s => isItem_ofExcept_bind fun start => ?_
  split
  · trivial
  · exact isItem_ofExcept_bind fun _ => isItem_ofExcept_pure trivial

/-! Flat values, and references that do not leave their region. -/

variable {refs : List Region}

lemma within_item (v : Value) (h : v.IsItem) : v.Within refs := Or.inl h.isFlat

lemma test_within (holds : Value → Bool) (h : ∀ v ∈ args, v.Within refs) : (test holds args).Within refs := by
  refine Or.inl ?_
  have harg := arg_of (within_item _ trivial) h 0
  unfold test
  split
  · rename_i g hg
    rw [hg] at harg
    obtain ⟨hregular, -⟩ | ⟨r, hr, -⟩ := harg
    · refine ⟨hregular.map _, fun v hv => ?_⟩
      obtain ⟨w, _, rfl⟩ := List.mem_map.1 hv
      trivial
    · cases hr
  · trivial

lemma part_inside {r s : Region} (h : r.Inside s) {rows cols : Nat × Nat}
    (hr : rows.1 ≤ rows.2 ∧ rows.2 < r.range.rowCount) (hc : cols.1 ≤ cols.2 ∧ cols.2 < r.range.colCount) :
    ∃ t, part (.reference r) rows cols = .reference t ∧ t.Inside s := by
  obtain ⟨hb, hsheet, hin⟩ := h
  refine ⟨_, rfl, hb, hsheet, Range.Inside.trans ?_ hin⟩
  obtain ⟨hrow, hcol⟩ := hin.1
  simp only [Range.rowCount, Range.colCount] at hr hc
  rw [Range.between_of_le (by omega) (by omega)]
  refine ⟨⟨?_, ?_⟩, ?_, ?_, ?_, ?_⟩ <;> simp only <;> omega

lemma lookup_of (hitem : ∀ v, v.IsItem → P v) {g : Grid Value} (hg : ∀ v ∈ g.items, P v) (i j : Nat) :
    P ((g.lookup i j).getD (.error .ref)) := by
  cases hi : g.lookup i j with
  | none => exact hitem _ trivial
  | some x =>
    rw [Grid.lookup_eq_get?, Grid.get?, Option.ite_none_right_eq_some] at hi
    exact hg x (List.mem_of_getElem? hi.2)

lemma part_within {v : Value} (h : v.Within refs) {size : Nat × Nat}
    (hv : shape? v = some size) {rows cols : Nat × Nat} (hr : rows.1 ≤ rows.2 ∧ rows.2 < size.1)
    (hc : cols.1 ≤ cols.2 ∧ cols.2 < size.2) : (part v rows cols).Within refs := by
  rcases h with h | ⟨r, rfl, s, hs, hin⟩
  · refine Or.inl ?_
    cases v with
    | array g =>
      have hitem := lookup_of (fun _ h => h) h.2
      simp only [part]
      split
      · exact (hitem _ _).isFlat
      · exact isFlat_build fun i j => hitem _ _
    | reference => exact h.elim
    | _ => cases hv
  · obtain rfl := Option.some.inj hv
    obtain ⟨t, ht, hin⟩ := part_inside hin hr hc
    exact Or.inr ⟨t, ht, s, hs, hin⟩

lemma index_within (h : ∀ v ∈ args, v.Within refs) : (index args).Within refs :=
  index_of within_item fun _ _ _ hs hr hc => part_within (arg_of (within_item _ trivial) h 0) hs hr hc

end Function

namespace FunctionDef

open Spreadsheet.Function

lemma steady_lookup : ∀ f ∈ lookupFunctions, f.Steady := by
  simp only [lookupFunctions, List.forall_mem_cons, List.not_mem_nil, false_implies, implies_true, and_true]
  exact ⟨(single_of_pure _ rfl (isItem_extent _)).flat.steady, (single_of_pure _ rfl (isItem_extent _)).flat.steady,
    (single_ordinal rfl).flat.steady, (single_ordinal rfl).flat.steady, steady_of_pure _ rfl fun _ _ => index_within,
    steady_of_pure _ rfl fun _ _ => pick_of within_item⟩

lemma single_math : ∀ f ∈ mathFunctions, f.volatile = false → f.name ≠ "POWER" → f.Single := by
  simp only [mathFunctions, List.forall_mem_cons, List.not_mem_nil, false_implies, implies_true, and_true,
    reduceCtorEq, true_imp_iff, ne_eq, not_true_eq_false]
  exact ⟨fun _ => single_of_pure _ rfl isItem_sum, fun _ => single_of_pure _ rfl isItem_average,
    fun _ => single_of_pure _ rfl (isItem_reduce _), fun _ => single_of_pure _ rfl (isItem_reduce _),
    fun _ => single_of_pure _ rfl fun _ => trivial, fun _ => single_of_pure _ rfl fun _ => trivial,
    fun _ => single_of_pure _ rfl isItem_product, fun _ => single_of_pure _ rfl (isItem_ofNumber _),
    fun _ => single_of_pure _ rfl isItem_round, fun _ => single_of_pure _ rfl (isItem_ofNumber _),
    fun _ => single_of_pure _ rfl isItem_modulo, trivial, fun _ => single_of_pure _ rfl isItem_squareRoot,
    fun _ => single_of_pure _ rfl (isItem_ofNumber _), fun _ => single_of_pure _ rfl fun _ => trivial⟩

lemma run_power : ∀ f ∈ mathFunctions, f.name = "POWER" → f.run = Function.pure power := by
  simp [mathFunctions]

lemma flat_math (f : FunctionDef) (hf : f ∈ mathFunctions) (hv : f.volatile = false) : f.Flat := by
  by_cases hpower : f.name = "POWER"
  · exact flat_of_pure _ (run_power f hf hpower) fun _ => Value.isFlat_applyBinary _ _ _
  · exact (single_math f hf hv hpower).flat

lemma single_connectives :
    ∀ f ∈ logicFunctions, f.name ≠ "IF" → f.name ≠ "IFERROR" → f.name ≠ "IFNA" → f.Single := by
  simp only [logicFunctions, List.forall_mem_cons, List.not_mem_nil, false_implies, implies_true, and_true,
    ne_eq, not_true_eq_false]
  exact ⟨trivial, fun _ _ _ => single_of_pure _ rfl (isItem_connective _),
    fun _ _ _ => single_of_pure _ rfl (isItem_connective _), fun _ _ _ => single_of_pure _ rfl isItem_negation,
    trivial, trivial, fun _ _ _ => single_of_pure _ rfl fun _ => trivial,
    fun _ _ _ => single_of_pure _ rfl fun _ => trivial⟩

lemma steady_logic (f : FunctionDef) (hf : f ∈ logicFunctions) (he : f.name ≠ "IFERROR") (hn : f.name ≠ "IFNA") :
    f.Steady := by
  by_cases hif : f.name = "IF"
  · have hchoose : ∀ f ∈ logicFunctions, f.name = "IF" → f.run = Function.pure choose := by
      simp [logicFunctions]
    exact steady_of_pure _ (hchoose f hf hif) fun _ _ => choose_of within_item
  · exact (single_connectives f hf hif he hn).flat.steady

lemma steady_info : ∀ f ∈ infoFunctions, f.Steady := by
  simp only [infoFunctions, List.forall_mem_cons, List.not_mem_nil, false_implies, implies_true, and_true]
  refine ⟨?_, ?_, ?_, ?_, ?_, ?_, ?_, ?_, ?_⟩
  case refine_8 => exact Flat.steady (Single.flat (single_of_pure _ rfl fun _ => trivial))
  case refine_9 => exact (single_of_pure _ rfl isItem_errorType).flat.steady
  all_goals exact steady_of_pure _ rfl fun _ _ => test_within _

lemma single_text : ∀ f ∈ textFunctions, f.Single := by
  simp only [textFunctions, List.forall_mem_cons, List.not_mem_nil, false_implies, implies_true, and_true]
  exact ⟨single_of_pure _ rfl (isItem_ofText fun _ => trivial), single_of_pure _ rfl isItem_left,
    single_of_pure _ rfl isItem_right, single_of_pure _ rfl isItem_middle,
    single_of_pure _ rfl (isItem_ofText fun _ => trivial),
    single_of_pure _ rfl (isItem_ofText fun _ => trivial),
    single_of_pure _ rfl (isItem_ofText fun _ => trivial),
    single_of_pure _ rfl fun _ => Value.isItem_ofExcept_map fun _ => trivial,
    single_of_pure _ rfl fun _ => Value.isItem_ofExcept_map fun _ => trivial⟩

lemma volatile_dates : ∀ f ∈ dateFunctions, f.volatile = true := by
  simp [dateFunctions]

end FunctionDef

namespace Registry

open Spreadsheet.Function

lemma getElem?_registerAll {fs : List FunctionDef} {r : Registry} {key : String} {f : FunctionDef}
    (h : (r.registerAll fs).functions[key]? = some f) : (f ∈ fs ∧ upper f.name = key) ∨ r.functions[key]? = some f := by
  induction fs generalizing r with
  | nil => exact Or.inr h
  | cons g fs ih =>
    rcases ih h with ⟨hf, hn⟩ | h
    · exact Or.inl ⟨List.mem_cons_of_mem _ hf, hn⟩
    · rw [register, Std.ExtTreeMap.getElem?_insert] at h
      split at h
      · rename_i hc
        obtain rfl := Option.some.inj h
        exact Or.inl ⟨List.mem_cons_self, Std.compare_eq_iff_eq.1 hc⟩
      · exact Or.inr h

lemma mem_of_getElem?_builtin {key : String} {f : FunctionDef} (h : builtin.functions[key]? = some f) :
    f ∈ lookupFunctions ++ mathFunctions ++ logicFunctions ++ infoFunctions ++ textFunctions ++ dateFunctions ∧
      upper f.name = key := by
  rcases getElem?_registerAll h with h | h
  · exact h
  · simp [empty] at h

lemma steady_of_find? {name : String} {f : FunctionDef} (h : builtin.find? name = some f)
    (hv : f.volatile = false) (he : upper name ≠ "IFERROR") (hn : upper name ≠ "IFNA") : f.Steady := by
  obtain ⟨hf, hname⟩ := mem_of_getElem?_builtin h
  have hne : ∀ s : String, upper name ≠ upper s → f.name ≠ s := fun s hs hfs => hs (by rw [← hname, hfs])
  simp only [List.mem_append, or_assoc] at hf
  rcases hf with hf | hf | hf | hf | hf | hf
  · exact FunctionDef.steady_lookup f hf
  · exact (FunctionDef.flat_math f hf hv).steady
  · exact FunctionDef.steady_logic f hf (hne _ (by rwa [show upper "IFERROR" = "IFERROR" by decide +kernel]))
      (hne _ (by rwa [show upper "IFNA" = "IFNA" by decide +kernel]))
  · exact FunctionDef.steady_info f hf
  · exact (FunctionDef.single_text f hf).flat.steady
  · rw [FunctionDef.volatile_dates f hf] at hv
    cases hv

end Registry

end Spreadsheet
