import Spreadsheet.Dependency.Entry
import Spreadsheet.Evaluation.Formula
import Spreadsheet.Proofs.Function.Builtin

/-! What a formula amounts to when every cell it reads is known. -/

namespace Spreadsheet

open Dependency Formula

/-- What formulas find in cells, and which sheets there are. -/
structure Reading where
  cell : Place → Scalar
  hasSheet : String → String → Bool

namespace Reading

variable (ρ : Reading)

def region (r : Region) : Value :=
  if !ρ.hasSheet r.book r.sheet then .error .ref
  else if r.range.isSingle then .ofScalar (ρ.cell ⟨r.book, r.sheet, r.range.start.row, r.range.start.col⟩)
  else .array ⟨r.range.rowCount, r.range.colCount, r.places.map fun p => .ofScalar (ρ.cell p)⟩

def materialize : Value → Value
  | .reference r => ρ.region r
  | v => v

def prepare (rule : ArgumentRule) (v : Value) : Value :=
  match rule with
  | .reference =>
    match v with
    | .reference _ | .error _ => v
    | _ => .error .value
  | .referenceOrArray =>
    match v with
    | .reference _ | .array _ | .error _ => v
    | v => .array (Grid.single v)
  | .scalar => Evaluator.unpack (ρ.materialize v)
  | .number => .ofExcept ((Evaluator.unpack (ρ.materialize v)).toNumber.map .number)
  | .any | .raw => ρ.materialize v

def answer (f : FunctionDef) (p : Place) (args : List (ArgumentRule × Value)) : Value :=
  match Evaluator.firstError? args with
  | some e => .error e
  | none => f.answer (args.map (·.2)) p

variable (r : Registry) (p : Place)

mutual

/-- The value of a formula without names, as the formula of the cell `p`. -/
def meaning : Node → Value
  | .literal _ l => l.value
  | .reference _ book sheet range => .reference ⟨book.getD p.book, sheet.getD p.sheet, range⟩
  | .name _ _ => .error .name
  | .unary _ op n => (ρ.materialize (meaning n)).applyUnary op
  | .binary _ op l r =>
    if op = .range ∨ op = .intersect then Evaluator.joinReferences op (meaning l) (meaning r)
    else (ρ.materialize (meaning l)).applyBinary op (ρ.materialize (meaning r))
  | .call _ name args =>
    match r.find? name with
    | none => .error .name
    | some f => if !f.accepts args.length then .error .notAvailable else answer f p (meaningArguments f 0 args)
  | .array _ rows => Evaluator.makeArray (meaningRows rows)
  | .union _ items => Evaluator.unite (meaningAll items)
  | .missing _ => .blank
  | .invalid _ problem => .error problem.error

def meaningArguments (f : FunctionDef) (i : Nat) : List Node → List (ArgumentRule × Value)
  | [] => []
  | n :: ns => (f.rules.rule i, ρ.prepare (f.rules.rule i) (meaning n)) :: meaningArguments f (i + 1) ns

def meaningAll : List Node → List Value
  | [] => []
  | n :: ns => ρ.materialize (meaning n) :: meaningAll ns

def meaningRows : List (List Node) → List (List Value)
  | [] => []
  | ns :: rows => (meaningAll ns).map Value.topLeft :: meaningRows rows

end

/-- The value that the formula of the cell `p` ends with. -/
def value (n : Node) : Value := ρ.materialize (ρ.meaning r p n)

end Reading

namespace Formula.Node

/-- A node whose value depends on nothing but the cells it refers to. -/
def IsPlain (r : Registry) : Node → Prop
  | reference _ _ _ range => range.Normal ∧ range.Bounded
  | name _ _ => False
  | binary _ op _ _ => op ≠ .range
  | call _ f _ => ∀ g, r.find? f = some g → g.Steady
  | _ => True

def Plain (r : Registry) (n : Node) : Prop := ∀ m ∈ n.nodes, m.IsPlain r

end Formula.Node

namespace Reading

open Formula.Node

lemma region_flat (ρ : Reading) {r : Region} (h : r.range.Normal) : (ρ.region r).IsFlat := by
  unfold region
  split
  · trivial
  · split
    · exact (Value.isItem_ofScalar _).isFlat
    · refine ⟨?_, fun v hv => ?_⟩
      · rw [Grid.Regular, List.length_map, Region.places, List.length_map, Range.length_cells h]
      · obtain ⟨p, _, rfl⟩ := List.mem_map.1 hv
        exact Value.isItem_ofScalar _

variable {ρ ρ' : Reading} {r : Registry} {p : Place} {refs : List Region} {v w : Value}

lemma materialize_flat (h : v.Within refs) : (ρ.materialize v).IsFlat := by
  rcases h with h | ⟨r, rfl, s, _, hin⟩
  · cases v with
    | reference => exact h.elim
    | _ => exact h
  · exact ρ.region_flat hin.2.2.1

lemma isItem_unpack (h : v.IsFlat) : (Evaluator.unpack v).IsItem := by
  cases v with
  | array g =>
    simp only [Evaluator.unpack, Grid.first?]
    split
    · obtain ⟨rows, cols, items⟩ := g
      cases items with
      | nil => trivial
      | cons x items => exact h.2 x List.mem_cons_self
    · trivial
  | reference | pending => exact h.elim
  | _ => trivial

lemma prepare_within (rule : ArgumentRule) (h : v.Within refs) : (ρ.prepare rule v).Within refs := by
  have hm : (ρ.materialize v).IsFlat := materialize_flat h
  cases rule with
  | any | raw => exact Or.inl hm
  | scalar => exact Or.inl (isItem_unpack hm).isFlat
  | number => exact Or.inl (Value.isItem_ofExcept_map (f := Value.number) fun _ => trivial).isFlat
  | reference =>
    simp only [prepare]
    split
    · exact h
    · exact h
    · exact Or.inl trivial
  | referenceOrArray =>
    simp only [prepare]
    split
    · exact h
    · exact h
    · exact h
    · rename_i hr ha _
      refine Or.inl ?_
      rcases h with h | ⟨r, rfl, _⟩
      · refine ⟨Grid.regular_single v, fun x hx => ?_⟩
        obtain rfl := List.mem_singleton.1 hx
        cases x with
        | array g => exact absurd rfl (ha g)
        | reference | pending => exact h.elim
        | _ => trivial
      · exact absurd rfl (hr r)

lemma joinReferences_intersect (hv : v.isPending = false) (hw : w.isPending = false) :
    (∃ e, Evaluator.joinReferences .intersect v w = .error e) ∨
      ∃ r s range, v = .reference r ∧ w = .reference s ∧ r.range.intersect? s.range = some range ∧
        Evaluator.joinReferences .intersect v w = .reference { r with range } := by
  unfold Evaluator.joinReferences
  rw [Value.firstPending?_eq_none (by simp [hv, hw])]
  split
  · rename_i h
    cases h
  · exact Or.inl ⟨_, rfl⟩
  · split
    · rename_i r s _
      rw [if_neg (by decide)]
      split
      · split
        · rename_i range hi
          exact Or.inr ⟨r, s, range, rfl, rfl, hi, rfl⟩
        · exact Or.inl ⟨_, rfl⟩
      · exact Or.inl ⟨_, rfl⟩
    · exact Or.inl ⟨_, rfl⟩

lemma joinReferences_within (hv : v.Within refs) (hw : w.Within refs) :
    (Evaluator.joinReferences .intersect v w).Within refs := by
  rcases joinReferences_intersect hv.isPending_eq hw.isPending_eq with ⟨e, he⟩ | ⟨a, b, range, rfl, rfl, hi, he⟩ <;>
    rw [he]
  · exact Or.inl trivial
  · rcases hv with hv | ⟨_, ha, s, hs, hin⟩
    · exact hv.elim
    rcases hw with hw | ⟨_, hb, t, ht, hin'⟩
    · exact hw.elim
    cases ha
    cases hb
    exact Or.inr ⟨_, rfl, s, hs, hin.1, hin.2.1, (Range.intersect?_inside hin.2.2.1 hin'.2.2.1 hi).trans hin.2.2⟩

lemma unite_flat {values : List Value} (h : ∀ v ∈ values, v.IsFlat) : (Evaluator.unite values).IsFlat := by
  unfold Evaluator.unite
  rw [Value.firstPending?_eq_none fun v hv => (h v hv).isPending_eq]
  split
  · rename_i hp
    cases hp
  · trivial
  · refine Value.isFlat_ofRows ?_ trivial
    intro row hrow v hv
    obtain rfl := List.mem_singleton.1 hrow
    obtain ⟨w, hw, hv⟩ := List.mem_flatMap.1 hv
    have hflat := h w hw
    cases w with
    | array g => exact hflat.2 v hv
    | reference | pending => exact hflat.elim
    | _ =>
      obtain rfl := List.mem_singleton.1 hv
      trivial

lemma makeArray_flat {rows : List (List Value)} (h : ∀ row ∈ rows, ∀ v ∈ row, v.IsItem) :
    (Evaluator.makeArray rows).IsFlat := by
  rw [Evaluator.makeArray, Value.firstPending?_eq_none]
  · exact Value.isFlat_ofRows h trivial
  · intro v hv
    obtain ⟨row, hrow, hv⟩ := List.mem_flatten.1 hv
    exact (h row hrow v hv).isFlat.isPending_eq

lemma answer_within {f : FunctionDef} (hf : f.Steady) {args : List (ArgumentRule × Value)}
    (h : ∀ x ∈ args, x.2.Within refs) : (answer f p args).Within refs := by
  unfold answer
  split
  · exact Or.inl trivial
  · refine hf.within refs _ p ?_
    intro v hv
    obtain ⟨x, hx, rfl⟩ := List.mem_map.1 hv
    exact h x hx

lemma meaningArguments_of_rules {f g : FunctionDef} (h : f.rules = g.rules) (i : Nat) (ns : List Node) :
    ρ.meaningArguments r p f i ns = ρ.meaningArguments r p g i ns := by
  induction ns generalizing i with
  | nil => rw [meaningArguments, meaningArguments]
  | cons n ns ih => rw [meaningArguments, meaningArguments, ih, h]

/-! What the whole formula refers to bounds what its parts can lead to. -/

variable {root : Node}

mutual

theorem meaning_within (hroot : root.Plain r) : ∀ n : Node, n.nodes ⊆ root.nodes →
    (ρ.meaning r p n).Within (referencesOf p.book p.sheet root)
  | .literal _ l, _ => Or.inl (by cases l <;> trivial)
  | .reference s book sheet range, h => by
    have hm := h (List.mem_singleton_self _)
    exact Or.inr ⟨_, rfl, _, List.mem_filterMap.2 ⟨_, hm, rfl⟩, rfl, rfl, Range.Inside.refl (hroot _ hm).1⟩
  | .name _ _, h => (hroot _ (h (List.mem_singleton_self _))).elim
  | .unary s op n, h => by
    rw [nodes, List.cons_subset] at h
    rw [meaning]
    exact Or.inl ((materialize_flat (meaning_within hroot n h.2)).applyUnary op)
  | .binary s op a b, h => by
    rw [nodes, List.cons_subset, List.append_subset] at h
    -- a range operator could reach beyond both of its operands, an intersection cannot
    have hop : op ≠ .range := hroot _ h.1
    rw [meaning]
    by_cases hi : op = .intersect
    · subst hi
      exact joinReferences_within (meaning_within hroot a h.2.1) (meaning_within hroot b h.2.2)
    · rw [if_neg (by simp [hop, hi])]
      exact Or.inl (Value.isFlat_applyBinary op _ _)
  | .call s f args, h => by
    rw [nodes, List.cons_subset] at h
    rw [meaning]
    split
    · exact Or.inl trivial
    · rename_i g hg
      split
      · exact Or.inl trivial
      · exact answer_within (hroot _ h.1 g hg) (meaningArguments_within hroot g 0 args h.2)
  | .array s rows, h => by
    rw [nodes, List.cons_subset] at h
    rw [meaning]
    exact Or.inl (makeArray_flat (meaningRows_item hroot rows h.2))
  | .union s items, h => by
    rw [nodes, List.cons_subset] at h
    rw [meaning]
    exact Or.inl (unite_flat (meaningAll_flat hroot items h.2))
  | .missing _, _ => Or.inl trivial
  | .invalid _ _, _ => Or.inl trivial

theorem meaningArguments_within (hroot : root.Plain r) (f : FunctionDef) : ∀ (i : Nat) (ns : List Node),
    nodesOfAll ns ⊆ root.nodes → ∀ x ∈ ρ.meaningArguments r p f i ns,
      x.2.Within (referencesOf p.book p.sheet root)
  | _, [], _ => by simp [meaningArguments]
  | i, n :: ns, h => by
    rw [nodesOfAll, List.append_subset] at h
    rw [meaningArguments, List.forall_mem_cons]
    exact ⟨prepare_within _ (meaning_within hroot n h.1), meaningArguments_within hroot f (i + 1) ns h.2⟩

theorem meaningAll_flat (hroot : root.Plain r) : ∀ ns : List Node, nodesOfAll ns ⊆ root.nodes →
    ∀ v ∈ ρ.meaningAll r p ns, v.IsFlat
  | [], _ => by simp [meaningAll]
  | n :: ns, h => by
    rw [nodesOfAll, List.append_subset] at h
    rw [meaningAll, List.forall_mem_cons]
    exact ⟨materialize_flat (meaning_within hroot n h.1), meaningAll_flat hroot ns h.2⟩

theorem meaningRows_item (hroot : root.Plain r) : ∀ rows : List (List Node), nodesOfRows rows ⊆ root.nodes →
    ∀ row ∈ ρ.meaningRows r p rows, ∀ v ∈ row, v.IsItem
  | [], _ => by simp [meaningRows]
  | ns :: rows, h => by
    rw [nodesOfRows, List.append_subset] at h
    rw [meaningRows, List.forall_mem_cons]
    refine ⟨?_, meaningRows_item hroot rows h.2⟩
    intro v hv
    obtain ⟨w, hw, rfl⟩ := List.mem_map.1 hv
    exact (meaningAll_flat hroot ns h.1 w hw).isItem_topLeft

end

lemma firstPending?_meaningArguments (hroot : root.Plain r) (f : FunctionDef) {ns : List Node}
    (h : nodesOfAll ns ⊆ root.nodes) : Value.firstPending? ((ρ.meaningArguments r p f 0 ns).map (·.2)) = none := by
  refine Value.firstPending?_eq_none fun v hv => ?_
  obtain ⟨x, hx, rfl⟩ := List.mem_map.1 hv
  exact (meaningArguments_within hroot f 0 ns h x hx).isPending_eq

lemma value_flat (hroot : root.Plain r) : (ρ.value r p root).IsFlat :=
  materialize_flat (meaning_within hroot root (List.Subset.refl _))

/-! Only cells that the formula refers to matter. -/

/-- Two readings agree on what some regions cover. -/
structure AgreeOn (refs : List Region) (ρ ρ' : Reading) : Prop where
  cell : ∀ s ∈ refs, ∀ q, s.contains q = true → ρ.cell q = ρ'.cell q
  hasSheet : ρ.hasSheet = ρ'.hasSheet

lemma contains_start {s : Region} (h : s.range.Normal) :
    s.contains ⟨s.book, s.sheet, s.range.start.row, s.range.start.col⟩ = true := by
  obtain ⟨hr, hc⟩ := h
  simp [Region.contains, Range.contains, hr, hc]

lemma contains_of_mem_places {s : Region} {q : Place} (h : q ∈ s.places) : s.contains q = true := by
  obtain ⟨⟨row, col⟩, hx, rfl⟩ := List.mem_map.1 h
  simpa [Region.contains] using Range.mem_cells.1 hx

lemma materialize_congr (h : AgreeOn refs ρ ρ') (hv : v.Within refs) : ρ.materialize v = ρ'.materialize v := by
  rcases hv with hv | ⟨s, rfl, t, ht, hin⟩
  · cases v with
    | reference => exact hv.elim
    | _ => rfl
  · have hcell : ∀ q, s.contains q = true → ρ.cell q = ρ'.cell q := fun q hq =>
      h.cell t ht q (hin.contains hq)
    simp only [materialize, region, h.hasSheet, hcell _ (contains_start hin.2.2.1)]
    have hplaces : (s.places.map fun q => Value.ofScalar (ρ.cell q)) =
        s.places.map fun q => Value.ofScalar (ρ'.cell q) :=
      List.map_congr_left fun q hq => by rw [hcell q (contains_of_mem_places hq)]
    rw [hplaces]

lemma prepare_congr (h : AgreeOn refs ρ ρ') (rule : ArgumentRule) (hv : v.Within refs) :
    ρ.prepare rule v = ρ'.prepare rule v := by
  cases rule with
  | reference | referenceOrArray => rfl
  | _ => simp only [prepare, materialize_congr h hv]

mutual

theorem meaning_congr (hroot : root.Plain r) (h : AgreeOn (referencesOf p.book p.sheet root) ρ ρ') :
    ∀ n : Node, n.nodes ⊆ root.nodes → ρ.meaning r p n = ρ'.meaning r p n
  | .literal _ _, _ | .reference _ _ _ _, _ | .name _ _, _ | .missing _, _ | .invalid _ _, _ => rfl
  | .unary s op n, hn => by
    rw [nodes, List.cons_subset] at hn
    rw [meaning, meaning, ← meaning_congr hroot h n hn.2, materialize_congr h (meaning_within hroot n hn.2)]
  | .binary s op a b, hn => by
    rw [nodes, List.cons_subset, List.append_subset] at hn
    rw [meaning, meaning, ← meaning_congr hroot h a hn.2.1, ← meaning_congr hroot h b hn.2.2,
      materialize_congr h (meaning_within hroot a hn.2.1), materialize_congr h (meaning_within hroot b hn.2.2)]
  | .call s f args, hn => by
    rw [nodes, List.cons_subset] at hn
    simp only [meaning, meaningArguments_congr hroot h _ 0 args hn.2]
  | .array s rows, hn => by
    rw [nodes, List.cons_subset] at hn
    rw [meaning, meaning, meaningRows_congr hroot h rows hn.2]
  | .union s items, hn => by
    rw [nodes, List.cons_subset] at hn
    rw [meaning, meaning, meaningAll_congr hroot h items hn.2]

theorem meaningArguments_congr (hroot : root.Plain r) (h : AgreeOn (referencesOf p.book p.sheet root) ρ ρ')
    (f : FunctionDef) : ∀ (i : Nat) (ns : List Node), nodesOfAll ns ⊆ root.nodes →
      ρ.meaningArguments r p f i ns = ρ'.meaningArguments r p f i ns
  | _, [], _ => rfl
  | i, n :: ns, hn => by
    rw [nodesOfAll, List.append_subset] at hn
    rw [meaningArguments, meaningArguments, ← meaning_congr hroot h n hn.1,
      prepare_congr h _ (meaning_within hroot n hn.1), meaningArguments_congr hroot h f (i + 1) ns hn.2]

theorem meaningAll_congr (hroot : root.Plain r) (h : AgreeOn (referencesOf p.book p.sheet root) ρ ρ') :
    ∀ ns : List Node, nodesOfAll ns ⊆ root.nodes → ρ.meaningAll r p ns = ρ'.meaningAll r p ns
  | [], _ => rfl
  | n :: ns, hn => by
    rw [nodesOfAll, List.append_subset] at hn
    rw [meaningAll, meaningAll, ← meaning_congr hroot h n hn.1, materialize_congr h (meaning_within hroot n hn.1),
      meaningAll_congr hroot h ns hn.2]

theorem meaningRows_congr (hroot : root.Plain r) (h : AgreeOn (referencesOf p.book p.sheet root) ρ ρ') :
    ∀ rows : List (List Node), nodesOfRows rows ⊆ root.nodes → ρ.meaningRows r p rows = ρ'.meaningRows r p rows
  | [], _ => rfl
  | ns :: rows, hn => by
    rw [nodesOfRows, List.append_subset] at hn
    rw [meaningRows, meaningRows, meaningAll_congr hroot h ns hn.1, meaningRows_congr hroot h rows hn.2]

end

lemma value_congr (hroot : root.Plain r) (h : AgreeOn (referencesOf p.book p.sheet root) ρ ρ') :
    ρ.value r p root = ρ'.value r p root := by
  have hm := meaning_congr hroot h root (List.Subset.refl _)
  rw [value, value, ← hm]
  exact materialize_congr h (meaning_within hroot root (List.Subset.refl _))

end Reading

end Spreadsheet
