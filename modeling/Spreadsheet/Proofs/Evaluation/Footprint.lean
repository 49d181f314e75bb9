import Spreadsheet.Proofs.Evaluation.Alike
import Spreadsheet.Proofs.Evaluation.Pass
import Spreadsheet.Proofs.Function.Sealed

/-! What a formula reads lies in the ranges recorded for it and for the definitions it leads to: workbooks that
agree there cannot be told apart. -/

namespace Spreadsheet

open Dependency Formula Std

/-- A node that makes no reference out of two others, and calls sealed functions only. -/
def Formula.Node.IsStatic (r : Registry) : Node → Prop
  | reference _ _ _ range => range.Normal
  | binary _ op _ _ => op ≠ .range
  | call _ f _ => ∀ g, r.find? f = some g → g.Sealed
  | _ => True

namespace Snapshot

/-- Trees that the evaluation of one of them in a cell does not lead out of, with what they refer to. -/
structure Holds (s : Snapshot) (p : Place) (trees : Set Node) (refs : List Region) : Prop where
  static : ∀ t ∈ trees, ∀ m ∈ t.nodes, m.IsStatic s.registry
  references : ∀ t ∈ trees, referencesOf p.book p.sheet t ⊆ refs
  definition : ∀ t ∈ trees, ∀ name ∈ namesOf t, ∀ d, s.definition? p name = some d →
    Node.parse { names := s.names, book := some p.book } d.formula ∈ trees

/-- Nothing but stored values outside of the given regions is different. -/
structure AgreeOn (p : Place) (refs : List Region) (a b : Snapshot) : Prop where
  registry : a.registry = b.registry
  names : a.names = b.names
  definition : a.definition? p = b.definition? p
  size : ∀ book sheet, (a.books.sheet? book sheet).map (fun s => (s.rowCount, s.colCount)) =
    (b.books.sheet? book sheet).map fun s => (s.rowCount, s.colCount)
  limit : ∀ book sheet s, a.books.sheet? book sheet = some s → s.rowCount ≤ maxRows ∧ s.colCount ≤ maxCols
  stored : ∀ r ∈ refs, ∀ q, r.contains q = true → a.stored q = b.stored q

end Snapshot

/-- Nothing is to be calculated, and what has been parsed is known. -/
structure Session.Settled (trees : Set Node) (s : Session) : Prop where
  dirty : s.pass.dirty = ∅
  flat : s.pass.Flat
  parsed : ∀ (k : NameKey) (n : Node), s.definitions[k]? = some n → n ∈ trees

lemma Snapshot.closed_stored (s : Snapshot) (q : Place) : (s.stored q).Closed := by
  rw [Evaluator.ofScalar_stored]
  exact .item (Value.isItem_ofScalar _)

namespace Evaluator

open Eval Value

variable {a b : Snapshot} {below below' : Evaluator} {p q : Place} {refs : List Region} {trees : Set Node}
  {scope : Scope} {v w : Value}

lemma alike_readCell (h : a.AgreeOn p refs b) {r : Region} (hr : r ∈ refs) (hq : r.contains q = true) :
    Alike (Session.Settled trees) Closed scope (readCell a below q) (readCell b below' q) := by
  unfold readCell
  apply alike_get
  intro s hs
  have hdirty : s.pass.dirty.contains q = false := by simp [hs.dirty]
  have hanchor : s.pass.dirtyAnchorOver? q = none :=
    Pass.dirtyAnchorOver?_eq_none fun a r ha => by simp [hs.dirty] at ha
  dsimp only
  split
  · exact alike_pure (.item trivial)
  · cases hv : s.pass.results[q]? with
    | some v => exact alike_pure (hs.flat.results q v hv).closed.topLeft
    | none =>
      simp only [hdirty, Bool.false_eq_true, if_false, hanchor, settledValue, h.stored r hr q hq]
      apply alike_get
      intro s hs
      apply alike_pure
      cases hx : s.pass.spilled[q]? with
      | some v => exact .item (hs.flat.spilled q v hx)
      | none => exact b.closed_stored q

lemma alike_readRegion (h : a.AgreeOn p refs b) {r s : Region} (hs : s ∈ refs) (hr : r.Inside s) :
    Alike (Session.Settled trees) Closed scope (readRegion a below r) (readRegion b below' r) := by
  have hsize := h.size r.book r.sheet
  unfold readRegion
  cases ha : a.books.sheet? r.book r.sheet with
  | none =>
    rw [ha, Option.map_none, eq_comm, Option.map_eq_none_iff] at hsize
    rw [hsize]
    exact alike_pure (.item trivial)
  | some sheet =>
    rw [ha, Option.map_some, eq_comm, Option.map_eq_some_iff] at hsize
    obtain ⟨sheet', hb, hcount⟩ := hsize
    obtain ⟨hrow, hcol⟩ := Prod.mk.inj hcount
    obtain ⟨hrows, hcols⟩ := h.limit _ _ _ ha
    have hin : ({ r with range := r.range.clamp sheet.rowCount sheet.colCount } : Region).Inside s :=
      ⟨hr.1, hr.2.1, (Range.clamp_inside hr.2.2.1 hrows hcols).trans hr.2.2⟩
    simp only [hb, hrow, hcol]
    split
    · exact alike_readCell h hs (hin.contains (Reading.contains_start hin.2.2.1))
    · refine alike_bind (alike_mapM fun q hq => alike_readCell h hs (hin.contains (Reading.contains_of_mem_places hq))) ?_
      intro values hvalues
      rw [firstPending?_eq_none fun v hv => (hvalues v hv).isPending_eq]
      exact alike_pure (.array hvalues)

lemma alike_materialize (h : a.AgreeOn p refs b) (hv : v.Covered refs) :
    Alike (Session.Settled trees) Closed scope (materializeWith a below v) (materializeWith b below' v) := by
  rcases hv with hv | ⟨r, rfl, s, hs, hr⟩
  · cases v with
    | reference =>
      cases hv with
      | item hv => exact hv.elim
    | _ => exact alike_pure hv
  · exact alike_readRegion h hs hr

lemma closed_unpack (h : v.Closed) : (unpack v).Closed := by
  cases h with
  | item hv =>
    cases v with
    | array => exact hv.elim
    | _ => exact .item hv
  | @array g hg =>
    simp only [unpack]
    split
    · exact (Closed.array hg).topLeft
    · exact .item trivial

lemma alike_prepare (h : a.AgreeOn p refs b) (rule : ArgumentRule) (hv : v.Covered refs) :
    Alike (Session.Settled trees) (rule.Fits refs) scope (prepare a below rule v) (prepare b below' rule v) := by
  unfold prepare
  rw [if_neg (by simp [hv.isPending_eq]), if_neg (by simp [hv.isPending_eq])]
  cases rule with
  | any | raw => exact alike_materialize h hv
  | scalar => exact alike_map (alike_materialize h hv) fun w hw => closed_unpack hw
  | number =>
    refine alike_bind (alike_materialize h hv) fun w hw => alike_pure ?_
    simp only [ArgumentRule.Fits, (closed_unpack hw).isPending_eq, Bool.false_eq_true, if_false]
    exact .item (isItem_ofExcept_map fun _ => trivial)
  | reference =>
    apply alike_pure
    simp only [ArgumentRule.Fits]
    split
    · exact hv
    · exact hv
    · exact Or.inl (.item trivial)
  | referenceOrArray =>
    apply alike_pure
    simp only [ArgumentRule.Fits]
    split
    · exact hv
    · exact hv
    · exact hv
    · rename_i hr _ _
      refine Or.inl (.array ?_)
      intro w hw
      obtain rfl := List.mem_singleton.1 hw
      rcases hv with hv | ⟨r, rfl, -⟩
      · exact hv
      · exact absurd rfl (hr r)

lemma joinReferences_covered (hv : v.Covered refs) (hw : w.Covered refs) :
    (joinReferences .intersect v w).Covered refs := by
  rcases Reading.joinReferences_intersect hv.isPending_eq hw.isPending_eq with
    ⟨e, he⟩ | ⟨r, s, range, rfl, rfl, hi, he⟩ <;> rw [he]
  · exact Or.inl (.item trivial)
  · have hin : ∀ {r : Region}, (Value.reference r).Covered refs → ∃ s ∈ refs, r.Inside s := by
      rintro r (hr | ⟨_, ⟨⟩, s⟩)
      · cases hr with
        | item hr => exact hr.elim
      · exact s
    obtain ⟨t, ht, hr⟩ := hin hv
    obtain ⟨_, _, hs⟩ := hin hw
    exact Or.inr ⟨_, rfl, t, ht, hr.1, hr.2.1, (Range.intersect?_inside hr.2.2.1 hs.2.2.1 hi).trans hr.2.2⟩

lemma closed_unite {values : List Value} (h : ∀ v ∈ values, v.Closed) : (unite values).Closed := by
  unfold unite
  rw [firstPending?_eq_none fun v hv => (h v hv).isPending_eq]
  split
  · rename_i hp
    cases hp
  · exact .item trivial
  · refine closed_ofRows ?_ trivial
    intro row hrow v hv
    obtain rfl := List.mem_singleton.1 hrow
    obtain ⟨w, hw, hv⟩ := List.mem_flatMap.1 hv
    have hclosed := h w hw
    split at hv
    · exact hclosed.items v hv
    · obtain rfl := List.mem_singleton.1 hv
      exact hclosed

lemma closed_makeArray {rows : List (List Value)} (h : ∀ row ∈ rows, ∀ v ∈ row, v.Closed) :
    (makeArray rows).Closed := by
  rw [makeArray, firstPending?_eq_none]
  · exact closed_ofRows h trivial
  · intro v hv
    obtain ⟨row, hrow, hv⟩ := List.mem_flatten.1 hv
    exact (h row hrow v hv).isPending_eq

/-! Calls and definitions. -/

lemma alike_run {f : FunctionDef} (hf : f.Sealed) (hw : scope.waits = false) (key : CallKey) {args : List Value}
    (hargs : ∀ i v, args[i]? = some v → (f.rules.rule i).Fits refs v) :
    Alike (Session.Settled trees) (·.Covered refs) scope (run key f args) (run key f args) := by
  unfold run
  refine alike_read (alike_bind (Q := (·.Covered refs)) (alike_ask ?_ ?_) fun v hv => ?_)
  · exact fun s host hs => ⟨hs.dirty, hs.flat, hs.parsed⟩
  · intro host v hv
    simp only [Host.call, hf.run_eq, Host.perform, Option.some.injEq] at hv
    exact hv ▸ hf.covered refs args _ hargs
  · simp only [hw, Bool.false_eq_true, if_false, hv.isPending_eq]
    exact alike_pure hv

/-- Prepared arguments fit their rules. -/
def Prepared (refs : List Region) (f : FunctionDef) (i : Nat) (args : List (ArgumentRule × Value)) : Prop :=
  ∀ j x, args[j]? = some x → x.1 = f.rules.rule (i + j) ∧ x.1.Fits refs x.2

lemma alike_call (h : a.AgreeOn p refs b) (hw : scope.waits = false) {start count : Nat} {name : String}
    (hf : ∀ f, a.registry.find? name = some f → f.Sealed)
    {arguments arguments' : FunctionDef → Eval (List (ArgumentRule × Value))}
    (hargs : ∀ f, Alike (Session.Settled trees) (Prepared refs f 0) scope (arguments f) (arguments' f)) :
    Alike (Session.Settled trees) (·.Covered refs) scope (call a start name count arguments)
      (call b start name count arguments') := by
  unfold call
  apply alike_read
  simp only [hw, Bool.false_eq_true, if_false, ← h.registry]
  cases hfind : a.registry.find? name with
  | none => exact alike_pure (Or.inl (.item trivial))
  | some f =>
    simp only
    split
    · exact alike_pure (Or.inl (.item trivial))
    · refine alike_bind (hargs f) fun args hargs => ?_
      have hfits : ∀ i v, (args.map (·.2))[i]? = some v → (f.rules.rule i).Fits refs v := by
        intro i v hv
        rw [List.getElem?_map, Option.map_eq_some_iff] at hv
        obtain ⟨x, hx, rfl⟩ := hv
        obtain ⟨hrule, hfits⟩ := hargs i x hx
        rwa [hrule, Nat.zero_add] at hfits
      rw [firstPending?_eq_none]
      · cases firstError? args with
        | some e => exact alike_pure (Or.inl (.item trivial))
        | none => exact alike_run (hf f hfind) hw _ hfits
      · intro v hv
        obtain ⟨i, hi⟩ := List.mem_iff_getElem?.1 hv
        exact (hfits i v hi).covered.isPending_eq

lemma alike_definitionNode (h : a.AgreeOn p refs b) {key : NameKey} (hkey : key.book = p.book) {d : DefinedName}
    (hd : Node.parse { names := a.names, book := some p.book } d.formula ∈ trees) :
    Alike (Session.Settled trees) (· ∈ trees) scope (definitionNode a key d) (definitionNode b key d) := by
  unfold definitionNode
  apply alike_get
  intro s hs
  cases hn : s.definitions[key]? with
  | some n => exact alike_pure (hs.parsed key n hn)
  | none =>
    simp only [← h.names, hkey]
    refine alike_bind (alike_modify ?_) fun _ _ => alike_pure hd
    refine fun s hs => ⟨hs.dirty, hs.flat, fun k n hk => ?_⟩
    rw [ExtTreeMap.getElem?_insert] at hk
    split at hk
    · exact Option.some.inj hk ▸ hd
    · exact hs.parsed k n hk

/-- Evaluators that do the same with the trees that names lead to. -/
def Below (p : Place) (trees : Set Node) (refs : List Region) (below below' : Evaluator) : Prop :=
  ∀ n ∈ trees, ∀ scope : Scope, scope.cursor.place = p → scope.waits = false →
    Alike (Session.Settled trees) (·.Covered refs) scope (below.evaluate n) (below'.evaluate n)

lemma alike_evaluateName (hh : a.Holds p trees refs) (h : a.AgreeOn p refs b) (hbelow : Below p trees refs below below')
    (hp : scope.cursor.place = p) (hw : scope.waits = false) {root : Node} (hroot : root ∈ trees) {name : String}
    (hname : name ∈ namesOf root) :
    Alike (Session.Settled trees) (·.Covered refs) scope (evaluateName a below name) (evaluateName b below' name) := by
  unfold evaluateName
  apply alike_read
  have hdef : b.definition? p name = a.definition? p name := by rw [h.definition]
  simp only [hp]
  rw [← Snapshot.definition?, ← Snapshot.definition?, hdef]
  cases hd : a.definition? p name with
  | none => exact alike_pure (Or.inl (.item trivial))
  | some d =>
    simp only
    split
    · exact alike_pure (Or.inl (.item trivial))
    · refine alike_bind (alike_definitionNode h rfl (hh.definition root hroot name hname d hd)) fun n hn => ?_
      exact alike_withReader _ (hbelow n hn _ hp hw)

/-! Whole trees: the induction is on the tree, and every part of a tree is a part of the one it belongs to. -/

section

variable {root : Node}

mutual

theorem alike_evaluate (hh : a.Holds p trees refs) (h : a.AgreeOn p refs b) (hbelow : Below p trees refs below below')
    (hp : scope.cursor.place = p) (hw : scope.waits = false) (hroot : root ∈ trees) : ∀ n : Node, n.nodes ⊆ root.nodes →
      Alike (Session.Settled trees) (·.Covered refs) scope (evaluateWith a below n) (evaluateWith b below' n)
  | .literal _ l, _ => by
    rw [evaluateWith, evaluateWith]
    exact alike_pure (Or.inl (.item (by cases l <;> trivial)))
  | .missing _, _ | .invalid _ _, _ => by
    rw [evaluateWith, evaluateWith]
    exact alike_pure (Or.inl (.item trivial))
  | .reference s book sheet range, hn => by
    have hm := hn (List.mem_singleton_self _)
    rw [evaluateWith, evaluateWith]
    refine alike_read (alike_pure (Or.inr ⟨_, rfl, _, hh.references root hroot (List.mem_filterMap.2 ⟨_, hm, rfl⟩), ?_⟩))
    rw [hp]
    exact ⟨rfl, rfl, Range.Inside.refl (hh.static root hroot _ hm)⟩
  | .name s name, hn => by
    rw [evaluateWith, evaluateWith]
    refine alike_evaluateName hh h hbelow hp hw hroot ?_
    exact List.mem_filterMap.2 ⟨_, hn (List.mem_singleton_self _), rfl⟩
  | .unary s op n, hn => by
    rw [Node.nodes, List.cons_subset] at hn
    rw [evaluateWith, evaluateWith]
    refine alike_bind (alike_evaluate hh h hbelow hp hw hroot n hn.2) fun v hv => ?_
    refine alike_bind (alike_materialize h hv) fun w hw => alike_pure ?_
    rw [hw.isPending_eq]
    exact Or.inl (hw.applyUnary op)
  | .binary s op l r, hn => by
    rw [Node.nodes, List.cons_subset, List.append_subset] at hn
    -- `:` would give a reference that lies in none of those recorded
    have hop : op ≠ .range := hh.static root hroot _ hn.1
    have hl := alike_evaluate hh h hbelow hp hw hroot l hn.2.1
    have hr := alike_evaluate hh h hbelow hp hw hroot r hn.2.2
    rw [evaluateWith, evaluateWith]
    by_cases hi : op = .intersect
    · rw [if_pos (Or.inr hi), if_pos (Or.inr hi), hi]
      exact alike_bind hl fun v hv => alike_bind hr fun w hw => alike_pure (joinReferences_covered hv hw)
    · rw [if_neg (not_or.2 ⟨hop, hi⟩), if_neg (not_or.2 ⟨hop, hi⟩)]
      refine alike_bind hl fun v hv => alike_bind (alike_materialize h hv) fun v hv => ?_
      refine alike_bind hr fun w hw => alike_bind (alike_materialize h hw) fun w hw => alike_pure ?_
      rw [firstPending?_eq_none (by simp [hv.isPending_eq, hw.isPending_eq])]
      exact Or.inl (isFlat_applyBinary op v w).closed
  | .call s f args, hn => by
    rw [Node.nodes, List.cons_subset] at hn
    rw [evaluateWith, evaluateWith]
    exact alike_call h hw (hh.static root hroot _ hn.1) fun g => alike_arguments hh h hbelow hp hw hroot g 0 args hn.2
  | .array s rows, hn => by
    rw [Node.nodes, List.cons_subset] at hn
    rw [evaluateWith, evaluateWith]
    exact alike_map (alike_rows hh h hbelow hp hw hroot rows hn.2) fun _ hrows => Or.inl (closed_makeArray hrows)
  | .union s items, hn => by
    rw [Node.nodes, List.cons_subset] at hn
    rw [evaluateWith, evaluateWith]
    exact alike_map (alike_all hh h hbelow hp hw hroot items hn.2) fun _ hitems => Or.inl (closed_unite hitems)

theorem alike_arguments (hh : a.Holds p trees refs) (h : a.AgreeOn p refs b) (hbelow : Below p trees refs below below')
    (hp : scope.cursor.place = p) (hw : scope.waits = false) (hroot : root ∈ trees) (f : FunctionDef) :
    ∀ (i : Nat) (ns : List Node), Node.nodesOfAll ns ⊆ root.nodes →
      Alike (Session.Settled trees) (Prepared refs f i) scope (evaluateArguments a below f i ns)
        (evaluateArguments b below' f i ns)
  | i, [], _ => by
    rw [evaluateArguments, evaluateArguments]
    exact alike_pure (by simp [Prepared])
  | i, n :: ns, hn => by
    rw [Node.nodesOfAll, List.append_subset] at hn
    rw [evaluateArguments, evaluateArguments]
    refine alike_bind (alike_evaluate hh h hbelow hp hw hroot n hn.1) fun v hv => ?_
    refine alike_bind (alike_prepare h _ hv) fun w hw' => ?_
    refine alike_bind (alike_arguments hh h hbelow hp hw hroot f (i + 1) ns hn.2) fun rest hrest => alike_pure ?_
    intro j x hx
    cases j with
    | zero =>
      obtain rfl := Option.some.inj hx
      exact ⟨rfl, hw'⟩
    | succ j =>
      have hj := hrest j x hx
      rwa [show i + 1 + j = i + (j + 1) by omega] at hj

theorem alike_all (hh : a.Holds p trees refs) (h : a.AgreeOn p refs b) (hbelow : Below p trees refs below below')
    (hp : scope.cursor.place = p) (hw : scope.waits = false) (hroot : root ∈ trees) :
    ∀ ns : List Node, Node.nodesOfAll ns ⊆ root.nodes →
      Alike (Session.Settled trees) (fun vs => ∀ v ∈ vs, v.Closed) scope (evaluateAll a below ns) (evaluateAll b below' ns)
  | [], _ => by
    rw [evaluateAll, evaluateAll]
    exact alike_pure (by simp)
  | n :: ns, hn => by
    rw [Node.nodesOfAll, List.append_subset] at hn
    rw [evaluateAll, evaluateAll]
    refine alike_bind (alike_evaluate hh h hbelow hp hw hroot n hn.1) fun v hv => ?_
    refine alike_bind (alike_materialize h hv) fun w hw' => ?_
    refine alike_bind (alike_all hh h hbelow hp hw hroot ns hn.2) fun rest hrest => alike_pure ?_
    exact List.forall_mem_cons.2 ⟨hw', hrest⟩

theorem alike_rows (hh : a.Holds p trees refs) (h : a.AgreeOn p refs b) (hbelow : Below p trees refs below below')
    (hp : scope.cursor.place = p) (hw : scope.waits = false) (hroot : root ∈ trees) :
    ∀ rows : List (List Node), Node.nodesOfRows rows ⊆ root.nodes →
      Alike (Session.Settled trees) (fun rows => ∀ row ∈ rows, ∀ v ∈ row, v.Closed) scope (evaluateRows a below rows)
        (evaluateRows b below' rows)
  | [], _ => by
    rw [evaluateRows, evaluateRows]
    exact alike_pure (by simp)
  | ns :: rows, hn => by
    rw [Node.nodesOfRows, List.append_subset] at hn
    rw [evaluateRows, evaluateRows]
    refine alike_bind (alike_all hh h hbelow hp hw hroot ns hn.1) fun row hrow => ?_
    refine alike_bind (alike_rows hh h hbelow hp hw hroot rows hn.2) fun rest hrest => alike_pure ?_
    refine List.forall_mem_cons.2 ⟨fun v hv => ?_, hrest⟩
    obtain ⟨w, hw', rfl⟩ := List.mem_map.1 hv
    exact (hrow w hw').topLeft

end

end

/-- Every level does the same, since names lead from trees to trees. -/
lemma below_ofDepth (hh : a.Holds p trees refs) (h : a.AgreeOn p refs b) (depth : Nat) :
    Below p trees refs (ofDepth a depth) (ofDepth b depth) := by
  induction depth with
  | zero => exact fun n _ scope _ _ => alike_pure (Or.inl (.item trivial))
  | succ depth ih => exact fun n hn scope hp hw => alike_evaluate hh h ih hp hw hn n (List.Subset.refl _)

lemma alike_value (hh : a.Holds p trees refs) (h : a.AgreeOn p refs b) (hp : scope.cursor.place = p)
    (hw : scope.waits = false) {n : Node} (hn : n ∈ trees) (depth : Nat) :
    Alike (Session.Settled trees) Closed scope ((ofDepth a (depth + 1)).value n) ((ofDepth b (depth + 1)).value n) := by
  unfold value
  exact alike_bind (below_ofDepth hh h (depth + 1) n hn scope hp hw) fun v hv => alike_materialize h hv

end Evaluator

namespace Interpreter

lemma run_congr {i : Interpreter} {origin : Origin} {x y : Eval Value}
    (h : Eval.exec x { i.scope with waits := false, origin } i.session =
      Eval.exec y { i.scope with waits := false, origin } i.session) : i.run false origin x = i.run false origin y := by
  have hwhole : ((do return (← x).settled : Eval Value).run { i.scope with waits := false, origin }).run i.session =
      ((do return (← y).settled : Eval Value).run { i.scope with waits := false, origin }).run i.session := by
    change Eval.exec _ _ _ = Eval.exec _ _ _
    rw [Eval.exec_bind, Eval.exec_bind, h]
  simp only [run, Bool.false_eq_true, if_false, hwhole]

/-- Snapshots that agree on what the trees refer to give the same value, and leave the same state. -/
theorem evaluate_agreeOn {a b : Snapshot} {p : Place} {refs : List Region} {trees : Set Node}
    (hh : a.Holds p trees refs) (h : a.AgreeOn p refs b) (hdepth : a.depth = b.depth)
    {i : Interpreter} (hs : i.session.Settled trees) (hp : i.scope.cursor.place = p) {n : Node} (hn : n ∈ trees) :
    i.evaluate a n false = i.evaluate b n false := by
  unfold evaluate
  apply run_congr
  unfold Snapshot.evaluator
  rw [← hdepth]
  refine (Evaluator.alike_value hh h ?_ ?_ hn a.depth _ ?_).1
  · exact hp
  · rfl
  · exact ⟨hs.dirty, hs.flat, hs.parsed⟩

end Interpreter

end Spreadsheet
