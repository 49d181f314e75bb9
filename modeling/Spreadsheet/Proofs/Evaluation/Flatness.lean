import Spreadsheet.Proofs.Evaluation.Once
import Spreadsheet.Proofs.Evaluation.Pass
import Spreadsheet.Proofs.Formula.Parse
import Spreadsheet.Proofs.Function.Solid

/-! What formulas of the functions that come with the program evaluate to: an item or a full array, never a reference or a
handle, and never a scope in which the evaluation broke off. In the arrays stand items, as long as no errors are
replaced. -/

namespace Spreadsheet

open Std Text Dependency Formula Value

/-! Evaluations that come to a result. -/

namespace Eval

variable {α β : Type} {I : Session → Prop} {Q : α → Prop} {R : β → Prop} {scope : Scope} {x : Eval α}

/-- From every session of a kind the evaluation comes to a result, of which something holds, and to a session of this
kind. -/
def Yields (I : Session → Prop) (Q : α → Prop) (scope : Scope) (x : Eval α) : Prop :=
  ∀ s, I s → ∃ a t, exec x scope s = (.ok a, t) ∧ I t ∧ Q a

lemma yields_pure {a : α} (ha : Q a) : Yields I Q scope (pure a) := fun s hs => ⟨a, s, rfl, hs, ha⟩

lemma Yields.bind {f : α → Eval β} (hx : Yields I Q scope x) (hf : ∀ a, Q a → Yields I R scope (f a)) :
    Yields I R scope (x >>= f) := by
  intro s hs
  obtain ⟨a, t, heq, ht, ha⟩ := hx s hs
  rw [exec_bind, heq]
  exact hf a ha t ht

lemma Yields.map {f : α → β} (hx : Yields I Q scope x) (hf : ∀ a, Q a → R (f a)) : Yields I R scope (do return f (← x)) :=
  hx.bind fun a ha => yields_pure (hf a ha)

lemma Yields.mono {Q' : α → Prop} (hx : Yields I Q scope x) (h : ∀ a, Q a → Q' a) : Yields I Q' scope x := by
  intro s hs
  obtain ⟨a, t, heq, ht, ha⟩ := hx s hs
  exact ⟨a, t, heq, ht, h a ha⟩

lemma yields_read {f : Scope → Eval α} (h : Yields I Q scope (f scope)) : Yields I Q scope (read >>= f) := h

lemma yields_get {f : Session → Eval α} (h : ∀ s, I s → Yields I Q scope (f s)) : Yields I Q scope (get >>= f) :=
  fun s hs => h s hs s hs

lemma yields_modify {f : Session → Session} (h : ∀ s, I s → I (f s)) : Yields I (fun _ => True) scope (modify f) :=
  fun s hs => ⟨⟨⟩, f s, rfl, h s hs, trivial⟩

lemma yields_withReader {change : Scope → Scope} (h : Yields I Q (change scope) x) :
    Yields I Q scope (withReader change x) := h

lemma yields_mapM {l : List α} {f : α → Eval β} (h : ∀ a, Yields I R scope (f a)) :
    Yields I (fun bs => bs.length = l.length ∧ ∀ b ∈ bs, R b) scope (l.mapM f) := by
  induction l with
  | nil => exact yields_pure (by simp)
  | cons a l ih =>
    rw [List.mapM_cons]
    refine (h a).bind fun b hb => ih.bind fun bs hbs => yields_pure ?_
    exact ⟨by simp [hbs.1], List.forall_mem_cons.2 ⟨hb, hbs.2⟩⟩

end Eval

/-! The formulas, and what is known while they are evaluated. -/

namespace Formula.Node

variable {nested : Prop} {n : Node}

/-- The call, if it is one, is of no function that replaces errors. -/
def KeepsErrors : Node → Prop
  | call _ f _ => upper f ≠ "IFERROR" ∧ upper f ≠ "IFNA"
  | _ => True

/-- The tree could be parsed, and nowhere in it are errors replaced where arrays are not nested. -/
def Apt (nested : Prop) (n : Node) : Prop := ∀ m ∈ n.nodes, m.IsFormed ∧ (nested ∨ m.KeepsErrors)

lemma apt_parse (b : Binder) (text : String) (o : Separators)
    (h : nested ∨ ∀ m ∈ (Node.parse b text o).nodes, m.KeepsErrors) : (Node.parse b text o).Apt nested :=
  fun m hm => ⟨formed_parse b text o m hm, h.imp_right fun h => h m hm⟩

end Formula.Node

/-- The functions are those that come with the program, and formulas and definitions were parsed. -/
structure Snapshot.Apt (nested : Prop) (s : Snapshot) : Prop where
  registry : s.registry = .builtin
  formulas : ∀ p e, s.formulas.cell? p = some e → e.node.Apt nested
  definitions : nested ∨ ∀ p name d, s.definition? p name = some d →
    ∀ m ∈ (Node.parse { names := s.names, book := some p.book } d.formula).nodes, m.KeepsErrors

/-- Results and spilled values are solid, and what was parsed are trees of formulas. -/
structure Session.Solid (nested : Prop) (s : Session) : Prop where
  results : ∀ (p : Place) (v : Value), s.pass.results[p]? = some v → v.Solid nested
  spilled : ∀ (p : Place) (v : Value), s.pass.spilled[p]? = some v → v.Inner nested
  definitions : ∀ (k : NameKey) (n : Node), s.definitions[k]? = some n → n.Apt nested

namespace Session.Solid

variable {nested : Prop} {s : Session}

lemma store (h : s.Solid nested) {books : Books} {index : Index} {p : Place} {v : Value} (hv : v.Solid nested) :
    Session.Solid nested { s with pass := s.pass.store books index p v } where
  results := Pass.results_of_store h.results hv (.item trivial)
  spilled := Pass.spilled_of_store h.spilled fun g hg => (hg ▸ hv : (Value.array g).Solid nested).full.2.2
  definitions := h.definitions

lemma define (h : s.Solid nested) {k : NameKey} {n : Node} (hn : n.Apt nested) :
    Session.Solid nested { s with definitions := s.definitions.insert k n } where
  results := h.results
  spilled := h.spilled
  definitions j m hm := by
    rw [ExtTreeMap.getElem?_insert] at hm
    split at hm
    · exact Option.some.inj hm ▸ hn
    · exact h.definitions j m hm

lemma ofPass (h : s.Solid nested) {pass : Pass}
    (hresults : ∀ (p : Place) (v : Value), pass.results[p]? = some v → s.pass.results[p]? = some v ∨ v.IsItem)
    (hspilled : pass.spilled = s.pass.spilled) : Session.Solid nested { s with pass } where
  results p v hv := (hresults p v hv).elim (h.results p v) .item
  spilled p v hv := h.spilled p v (hspilled ▸ hv)
  definitions := h.definitions

lemma flat (h : s.Solid False) : s.pass.Flat where
  results p v hv := (h.results p v hv).isFlat
  spilled p v hv := (h.spilled p v hv).2.resolve_left id

end Session.Solid

/-! What is made of the values of the parts. -/

namespace Evaluator

open Eval

variable {nested : Prop} {v w : Value}

lemma solid_unpack (h : v.Solid nested) : (unpack v).Solid nested := by
  unfold unpack
  split
  · split
    · rename_i g _
      obtain ⟨rows, cols, items⟩ := g
      cases items with
      | nil => exact .item trivial
      | cons v items => exact (h.full.2.2 v List.mem_cons_self).1
    · exact .item trivial
  · exact h

lemma ready_joinReferences (op : BinaryOp) (hv : v.Ready nested) (hw : w.Ready nested) :
    (joinReferences op v w).Ready nested := by
  unfold joinReferences
  rw [firstPending?_eq_none (by simp [hv.isPending_eq, hw.isPending_eq])]
  split
  · contradiction
  · exact IsItem.ready trivial
  · split
    · rename_i r s
      obtain ⟨r', hr, hnormal⟩ := hv.resolve_left fun h => h.not_reference
      obtain ⟨s', hs, hnormal'⟩ := hw.resolve_left fun h => h.not_reference
      obtain rfl := Value.reference.inj hr
      obtain rfl := Value.reference.inj hs
      split
      · split
        · refine Or.inr ⟨_, rfl, ?_⟩
          obtain ⟨hrow, hcol⟩ := hnormal
          simp only [Range.bounding]
          rw [Range.between_of_le (by omega) (by omega)]
          exact ⟨by simp only; omega, by simp only; omega⟩
        · exact IsItem.ready trivial
      · split
        · split
          · rename_i range hrange
            exact Or.inr ⟨_, rfl, (Range.intersect?_inside hnormal hnormal' hrange).1⟩
          · exact IsItem.ready trivial
        · exact IsItem.ready trivial
    · exact IsItem.ready trivial

lemma solid_ofRows {rows : List (List Value)} (hne : rows ≠ []) (hrows : ∀ row ∈ rows, row ≠ [])
    (h : ∀ row ∈ rows, ∀ v ∈ row, v.Inner nested) (e : ErrorValue) :
    (Value.array (Grid.ofRows rows (.error e))).Solid nested := by
  refine solid_array (regular_ofRows rows _) ?_ fun v hv => ?_
  · obtain ⟨row, rest, rfl⟩ := List.exists_cons_of_ne_nil hne
    obtain ⟨v, vs, rfl⟩ := List.exists_cons_of_ne_nil (hrows row List.mem_cons_self)
    simp [Grid.size, Grid.ofRows]
  · simp only [Grid.ofRows, List.mem_flatMap, List.mem_append, List.mem_replicate] at hv
    obtain ⟨row, hrow, hv | ⟨-, rfl⟩⟩ := hv
    · exact h row hrow v hv
    · exact IsItem.inner trivial

lemma solid_makeArray {rows : List (List Value)} (hne : rows ≠ []) (hrows : ∀ row ∈ rows, row ≠ [])
    (h : ∀ row ∈ rows, ∀ v ∈ row, v.Inner nested) : (makeArray rows).Solid nested := by
  have hflatten : ∀ v ∈ rows.flatten, v.isPending = false := by
    intro v hv
    obtain ⟨row, hrow, hv⟩ := List.mem_flatten.1 hv
    exact (h row hrow v hv).1.isPending_eq
  rw [makeArray, firstPending?_eq_none hflatten]
  exact solid_ofRows hne hrows h _

lemma solid_unite {values : List Value} (hne : values ≠ []) (h : ∀ v ∈ values, v.Solid nested) :
    (unite values).Solid nested := by
  unfold unite
  rw [firstPending?_eq_none fun v hv => (h v hv).isPending_eq]
  split
  · contradiction
  · exact .item trivial
  · refine solid_ofRows (by simp) ?_ ?_ _
    · simp only [List.mem_singleton, forall_eq]
      obtain ⟨v, vs, rfl⟩ := List.exists_cons_of_ne_nil hne
      have hv := h v List.mem_cons_self
      rw [List.flatMap_cons]
      refine List.append_ne_nil_of_left_ne_nil ?_ _
      cases v with
      | array g => exact List.ne_nil_of_length_pos hv.full.2.1
      | _ => exact List.cons_ne_nil _ _
    · simp only [List.mem_singleton, forall_eq, List.mem_flatMap]
      rintro u ⟨v, hv, hu⟩
      have hsolid := h v hv
      cases v with
      | array g => exact hsolid.full.2.2 u hu
      | reference => exact hsolid.not_reference.elim
      | pending => cases hsolid with | item h => exact h.elim
      | _ => exact List.mem_singleton.1 hu ▸ IsItem.inner trivial

end Evaluator

/-- What the formulas on a level evaluate to where answers are not waited for. -/
structure Evaluator.Solid (nested : Prop) (e : Evaluator) : Prop where
  evaluate : ∀ (scope : Scope) (n : Node), scope.waits = false → n.Apt nested →
    Eval.Yields (Session.Solid nested) (Ready nested) scope (e.evaluate n)
  materialize : ∀ (scope : Scope) (v : Value), scope.waits = false → v.Ready nested →
    Eval.Yields (Session.Solid nested) (Value.Solid nested) scope (e.materialize v)

namespace Evaluator

open Eval

variable {nested : Prop} {snapshot : Snapshot} {below : Evaluator} {scope : Scope} {v : Value}

lemma solid_bottom : bottom.Solid nested where
  evaluate _ _ _ _ := yields_pure (IsItem.ready trivial)
  materialize _ _ _ _ := yields_pure (.item trivial)

lemma isItem_stored (p : Place) : (snapshot.stored p).IsItem := ofScalar_stored p ▸ isItem_ofScalar _

lemma yields_settledValue (p : Place) :
    Yields (Session.Solid nested) (Inner nested) scope (settledValue snapshot p) := by
  refine yields_get fun s hsolid => yields_pure ?_
  cases hx : s.pass.spilled[p]? with
  | none => exact (isItem_stored p).inner
  | some v => exact hsolid.spilled p v hx

/-! Reading. -/

section

variable (hs : snapshot.Apt nested) (h : below.Solid nested) (hw : scope.waits = false)

include hs h hw

lemma yields_calculate (p : Place) :
    Yields (Session.Solid nested) (Value.Solid nested) scope (calculate snapshot below p) := by
  unfold calculate
  refine yields_read ?_
  split
  · exact yields_pure (.item trivial)
  · cases he : snapshot.formulas.cell? p with
    | none => exact yields_pure (.item (isItem_stored p))
    | some e =>
      dsimp only
      have hvalue : Yields (Session.Solid nested) (Value.Solid nested) (scope.enterCell (snapshot.books.cursor p))
          (below.value e.node) :=
        (h.evaluate (scope.enterCell _) _ hw (hs.formulas p e he)).bind fun v hv =>
          h.materialize (scope.enterCell _) v hw hv
      refine (yields_withReader hvalue).bind fun v hv => ?_
      rw [if_neg (by simp [hv.isPending_eq])]
      refine (yields_modify fun s hsolid => hsolid.store hv).bind fun _ _ => yields_get fun s hsolid => yields_pure ?_
      cases hr : s.pass.results[p]? with
      | none => exact .item trivial
      | some w => exact hsolid.results p w hr

lemma yields_readCell (p : Place) :
    Yields (Session.Solid nested) (Inner nested) scope (readCell snapshot below p) := by
  unfold readCell
  refine yields_get fun s hsolid => ?_
  dsimp only
  split
  · exact yields_pure (IsItem.inner trivial)
  · cases hr : s.pass.results[p]? with
    | some v => exact yields_pure (hsolid.results p v hr).topLeft
    | none =>
      dsimp only
      split
      · exact (yields_calculate hs h hw p).map fun _ => Value.Solid.topLeft
      · cases s.pass.dirtyAnchorOver? p with
        | none => exact yields_settledValue p
        | some a =>
          refine (yields_calculate hs h hw a).bind fun v hv => ?_
          rw [if_neg (by simp [hv.isPending_eq])]
          exact yields_settledValue p

lemma yields_readRegion {r : Region} (hr : r.range.Normal) :
    Yields (Session.Solid nested) (Value.Solid nested) scope (readRegion snapshot below r) := by
  unfold readRegion
  cases snapshot.books.sheet? r.book r.sheet with
  | none => exact yields_pure (.item trivial)
  | some sheet =>
    dsimp only
    split
    · exact (yields_readCell hs h hw _).mono fun _ => And.left
    · have hclamp := Range.normal_clamp hr sheet.rowCount sheet.colCount
      refine (yields_mapM fun q => yields_readCell hs h hw q).bind fun values ⟨hlength, hvalues⟩ => yields_pure ?_
      rw [firstPending?_eq_none fun v hv => (hvalues v hv).1.isPending_eq, Option.getD_none]
      rw [Region.places, List.length_map, Range.length_cells hclamp] at hlength
      refine solid_array hlength ?_ hvalues
      rw [Grid.size, hlength]
      exact Nat.mul_pos (Nat.succ_pos _) (Nat.succ_pos _)

lemma yields_materialize (hv : v.Ready nested) :
    Yields (Session.Solid nested) (Value.Solid nested) scope (materializeWith snapshot below v) := by
  rcases hv with hv | ⟨r, rfl, hr⟩
  · cases v with
    | reference => exact hv.not_reference.elim
    | _ => exact yields_pure hv
  · exact yields_readRegion hs h hw hr

lemma yields_prepare (rule : ArgumentRule) (hv : v.Ready nested) :
    Yields (Session.Solid nested) (fun v => rule.Takes nested v) scope (prepare snapshot below rule v) := by
  have hm := yields_materialize hs h hw hv
  unfold prepare
  rw [if_neg (by simp [hv.isPending_eq])]
  cases rule with
  | reference =>
    refine yields_pure ?_
    split
    · exact hv
    · exact hv
    · exact IsItem.ready trivial
  | referenceOrArray =>
    refine yields_pure ?_
    split
    · exact hv
    · exact hv
    · exact hv
    · rename_i hreference harray _
      have hv := hv.resolve_right fun ⟨r, hr, _⟩ => hreference r hr
      refine (solid_single ⟨hv, Or.inr ?_⟩).ready
      cases hv with
      | item h => exact h
      | @array g => exact absurd rfl (harray g)
  | scalar => exact hm.map fun _ => solid_unpack
  | number =>
    refine hm.bind fun v hv => yields_pure ?_
    rw [if_neg (by simp [(solid_unpack hv).isPending_eq])]
    exact .item (isItem_ofExcept_map fun _ => trivial)
  | any | raw => exact hm

end

/-! Calls. -/

lemma yields_host {f : FunctionDef} {args : List Value} (hf : f.Solid nested)
    (hargs : ∀ i v, args[i]? = some v → (f.rules.rule i).Takes nested v) (p : Place) (rows cols : Nat) :
    Yields (Session.Solid nested) (Ready nested) scope (ask (·.call f args p rows cols)) := by
  intro s hs
  obtain ⟨v, hrun, hv⟩ := hf args ⟨p, rows, cols, s.host.moment, (s.host.countRun f.name).draw.1⟩ hargs
  refine ⟨v, { s with host := (s.host.countRun f.name).draw.2 }, ?_, ⟨hs.results, hs.spilled, hs.definitions⟩, hv⟩
  have hcall : s.host.call f args p rows cols = (some v, (s.host.countRun f.name).draw.2) := by
    rw [Host.call]
    exact congrArg _ hrun
  rw [exec_ask, hcall]

lemma yields_run (hw : scope.waits = false) {f : FunctionDef} {args : List Value} (hf : f.Solid nested)
    (hargs : ∀ i v, args[i]? = some v → (f.rules.rule i).Takes nested v) (key : CallKey) :
    Yields (Session.Solid nested) (Ready nested) scope (run key f args) := by
  unfold run
  refine yields_read ((yields_host hf hargs _ _ _).bind fun v hv => ?_)
  simp only [hw, Bool.false_eq_true, if_false, hv.isPending_eq]
  exact yields_pure hv

/-- Arguments as the rules of the function want them. -/
def Taken (nested : Prop) (f : FunctionDef) (i : Nat) (args : List (ArgumentRule × Value)) : Prop :=
  ∀ j x, args[j]? = some x → (f.rules.rule (i + j)).Takes nested x.2

lemma Taken.cons {f : FunctionDef} {i : Nat} {args : List (ArgumentRule × Value)} {rule : ArgumentRule}
    (hv : (f.rules.rule i).Takes nested v) (h : Taken nested f (i + 1) args) :
    Taken nested f i ((rule, v) :: args) := by
  intro j x hx
  cases j with
  | zero => exact Option.some.inj hx ▸ hv
  | succ j =>
    rw [← Nat.add_assoc, Nat.add_right_comm]
    exact h j x hx

lemma yields_call (hs : snapshot.Apt nested) (hw : scope.waits = false) {start count : Nat} {name : String}
    (hname : nested ∨ upper name ≠ "IFERROR" ∧ upper name ≠ "IFNA")
    {arguments : FunctionDef → Eval (List (ArgumentRule × Value))}
    (h : ∀ f, Yields (Session.Solid nested) (Taken nested f 0) scope (arguments f)) :
    Yields (Session.Solid nested) (Ready nested) scope (call snapshot start name count arguments) := by
  unfold call
  refine yields_read ?_
  simp only [hw, Bool.false_eq_true, if_false]
  rw [hs.registry]
  cases hf : Registry.builtin.find? name with
  | none => exact yields_pure (IsItem.ready trivial)
  | some f =>
    dsimp only
    split
    · exact yields_pure (IsItem.ready trivial)
    · refine (h f).bind fun args hargs => ?_
      have htakes : ∀ i v, (args.map (·.2))[i]? = some v → (f.rules.rule i).Takes nested v := by
        intro i v hv
        rw [List.getElem?_map] at hv
        obtain ⟨x, hx, rfl⟩ := Option.map_eq_some_iff.1 hv
        exact Nat.zero_add i ▸ hargs i x hx
      have hpending : firstPending? (args.map (·.2)) = none := by
        refine firstPending?_eq_none fun v hv => ?_
        obtain ⟨i, hi⟩ := List.mem_iff_getElem?.1 hv
        exact (htakes i v hi).ready.isPending_eq
      rw [hpending]
      split
      · contradiction
      · exact yields_pure (IsItem.ready trivial)
      · exact yields_run hw (Registry.solid_of_find? hf hname) htakes _

/-! Names. -/

lemma yields_definitionNode {p : Place} {name : String} {d : DefinedName} (hs : snapshot.Apt nested)
    (hd : snapshot.definition? p name = some d) :
    Yields (Session.Solid nested) (Node.Apt nested) scope (definitionNode snapshot ⟨p.book, d.scope, upper name⟩ d) := by
  unfold definitionNode
  refine yields_get fun s hsolid => ?_
  split
  · rename_i n hn
    exact yields_pure (hsolid.definitions _ n hn)
  · have hparse := Node.apt_parse { names := snapshot.names, book := some p.book } d.formula {}
      (hs.definitions.imp_right fun h => h p name d hd)
    exact (yields_modify fun t ht => ht.define hparse).bind fun _ _ => yields_pure hparse

lemma yields_evaluateName (hs : snapshot.Apt nested) (h : below.Solid nested) (hw : scope.waits = false) (name : String) :
    Yields (Session.Solid nested) (Ready nested) scope (evaluateName snapshot below name) := by
  unfold evaluateName
  refine yields_read ?_
  dsimp only
  rw [← Snapshot.definition?]
  cases hd : snapshot.definition? scope.cursor.place name with
  | none => exact yields_pure (IsItem.ready trivial)
  | some d =>
    dsimp only
    split
    · exact yields_pure (IsItem.ready trivial)
    · refine (yields_definitionNode hs hd).bind fun n hn => yields_withReader ?_
      exact h.evaluate (scope.enterName _) n hw hn

/-! Whole formulas. -/

mutual

theorem yields_evaluate (hs : snapshot.Apt nested) (h : below.Solid nested) (hw : scope.waits = false) :
    ∀ n : Node, n.Apt nested → Yields (Session.Solid nested) (Ready nested) scope (evaluateWith snapshot below n)
  | .literal _ l, _ => by
    rw [evaluateWith]
    exact yields_pure (IsItem.ready (by cases l <;> trivial))
  | .missing _, _ | .invalid _ _, _ => by
    rw [evaluateWith]
    exact yields_pure (IsItem.ready trivial)
  | .reference _ book sheet r, hn => by
    simp only [Node.Apt, Node.nodes, List.mem_singleton, forall_eq] at hn
    rw [evaluateWith]
    exact yields_read (yields_pure (Or.inr ⟨_, rfl, hn.1.1⟩))
  | .name _ name, _ => by
    rw [evaluateWith]
    exact yields_evaluateName hs h hw name
  | .unary _ op n, hn => by
    rw [Node.Apt, Node.nodes, List.forall_mem_cons] at hn
    rw [evaluateWith]
    refine (yields_evaluate hs h hw n hn.2).bind fun v hv => (yields_materialize hs h hw hv).bind fun v hv => ?_
    rw [if_neg (by simp [hv.isPending_eq])]
    exact yields_pure (hv.applyUnary op).ready
  | .binary _ op l r, hn => by
    rw [Node.Apt, Node.nodes, List.forall_mem_cons, List.forall_mem_append] at hn
    have hl := yields_evaluate hs h hw l hn.2.1
    have hr := yields_evaluate hs h hw r hn.2.2
    rw [evaluateWith]
    split
    · exact hl.bind fun v hv => hr.map fun w hw => ready_joinReferences op hv hw
    · refine hl.bind fun v hv => (yields_materialize hs h hw hv).bind fun v hv => ?_
      refine hr.bind fun w hwr => (yields_materialize hs h hw hwr).bind fun w hwr => yields_pure ?_
      rw [firstPending?_eq_none (by simp [hv.isPending_eq, hwr.isPending_eq])]
      exact (hv.applyBinary op hwr).ready
  | .call _ f args, hn => by
    rw [Node.Apt, Node.nodes, List.forall_mem_cons] at hn
    rw [evaluateWith]
    exact yields_call hs hw hn.1.2 fun g => yields_arguments hs h hw g 0 args hn.2
  -- every row has as many items as nodes, and there are no rows without any
  | .array _ rows, hn => by
    rw [Node.Apt, Node.nodes, List.forall_mem_cons] at hn
    obtain ⟨⟨⟨hne, hrows⟩, -⟩, hn⟩ := hn
    rw [evaluateWith]
    refine (yields_rows hs h hw rows hn).map fun out ⟨hlength, hitems⟩ => (solid_makeArray ?_ ?_ hitems).ready
    · rintro rfl
      exact hne (by simpa using hlength)
    · intro row hrow hnil
      have hmem : 0 ∈ rows.map List.length := hlength ▸ List.mem_map.2 ⟨row, hrow, by simp [hnil]⟩
      obtain ⟨ns, hns, hlength⟩ := List.mem_map.1 hmem
      exact hrows ns hns (List.length_eq_zero_iff.1 hlength)
  | .union _ items, hn => by
    rw [Node.Apt, Node.nodes, List.forall_mem_cons] at hn
    rw [evaluateWith]
    refine (yields_all hs h hw items hn.2).map fun values ⟨hlength, hvalues⟩ => (solid_unite ?_ hvalues).ready
    rintro rfl
    exact hn.1.1 (List.length_eq_zero_iff.1 hlength.symm)

theorem yields_arguments (hs : snapshot.Apt nested) (h : below.Solid nested) (hw : scope.waits = false)
    (f : FunctionDef) : ∀ (i : Nat) (ns : List Node), (∀ m ∈ Node.nodesOfAll ns, m.IsFormed ∧ (nested ∨ m.KeepsErrors)) →
      Yields (Session.Solid nested) (Taken nested f i) scope (evaluateArguments snapshot below f i ns)
  | _, [], _ => by
    rw [evaluateArguments]
    exact yields_pure (by simp [Taken])
  | i, n :: ns, hn => by
    rw [Node.nodesOfAll, List.forall_mem_append] at hn
    rw [evaluateArguments]
    refine (yields_evaluate hs h hw n hn.1).bind fun v hv => (yields_prepare hs h hw _ hv).bind fun v hv => ?_
    exact (yields_arguments hs h hw f (i + 1) ns hn.2).map fun args hargs => hargs.cons hv

theorem yields_all (hs : snapshot.Apt nested) (h : below.Solid nested) (hw : scope.waits = false) :
    ∀ ns : List Node, (∀ m ∈ Node.nodesOfAll ns, m.IsFormed ∧ (nested ∨ m.KeepsErrors)) →
      Yields (Session.Solid nested) (fun vs => vs.length = ns.length ∧ ∀ v ∈ vs, v.Solid nested) scope
        (evaluateAll snapshot below ns)
  | [], _ => by
    rw [evaluateAll]
    exact yields_pure (by simp)
  | n :: ns, hn => by
    rw [Node.nodesOfAll, List.forall_mem_append] at hn
    rw [evaluateAll]
    refine (yields_evaluate hs h hw n hn.1).bind fun v hv => (yields_materialize hs h hw hv).bind fun v hv => ?_
    refine (yields_all hs h hw ns hn.2).map fun vs ⟨hlength, hvs⟩ => ?_
    exact ⟨by simp [hlength], List.forall_mem_cons.2 ⟨hv, hvs⟩⟩

theorem yields_rows (hs : snapshot.Apt nested) (h : below.Solid nested) (hw : scope.waits = false) :
    ∀ rows : List (List Node), (∀ m ∈ Node.nodesOfRows rows, m.IsFormed ∧ (nested ∨ m.KeepsErrors)) →
      Yields (Session.Solid nested)
        (fun out => out.map List.length = rows.map List.length ∧ ∀ row ∈ out, ∀ v ∈ row, v.Inner nested) scope
        (evaluateRows snapshot below rows)
  | [], _ => by
    rw [evaluateRows]
    exact yields_pure (by simp)
  | ns :: rows, hn => by
    rw [Node.nodesOfRows, List.forall_mem_append] at hn
    rw [evaluateRows]
    refine (yields_all hs h hw ns hn.1).bind fun row ⟨hlength, hrow⟩ => ?_
    refine (yields_rows hs h hw rows hn.2).map fun out ⟨hlengths, hout⟩ => ?_
    refine ⟨by simp [hlength, hlengths], List.forall_mem_cons.2 ⟨fun v hv => ?_, hout⟩⟩
    obtain ⟨w, hwr, rfl⟩ := List.mem_map.1 hv
    exact (hrow w hwr).topLeft

end

theorem solid_ofDepth (hs : snapshot.Apt nested) (levels : Nat) : (ofDepth snapshot levels).Solid nested := by
  induction levels with
  | zero => exact solid_bottom
  | succ levels ih =>
    exact ⟨fun _ n hw hn => yields_evaluate hs ih hw n hn, fun _ _ hw hv => yields_materialize hs ih hw hv⟩

end Evaluator

namespace Interpreter

open Eval

variable {nested : Prop} {i : Interpreter} {s : Snapshot} {n : Node} {origin : Origin} {act : Eval Value}

lemma exists_run (h : Yields (Session.Solid nested) (Value.Solid nested) { i.scope with waits := false, origin } act)
    (hi : i.session.Solid nested) :
    ∃ v j, i.run false origin act = (some v, j) ∧ v.Solid nested ∧ j.session.Solid nested := by
  obtain ⟨v, t, heq, ht, hv⟩ := h i.session hi
  have hsettled : v.settled = v := by
    cases v with
    | reference => exact hv.not_reference.elim
    | pending => cases hv with | item h => exact h.elim
    | _ => rfl
  have hexec : exec (do return (← act).settled) { i.scope with waits := false, origin } i.session = (.ok v, t) := by
    rw [exec_bind, heq]
    exact congrArg (fun w => (Except.ok w, t)) hsettled
  refine ⟨v, { i with session := t, interrupted := none }, ?_, hv, ht⟩
  unfold run
  simp only [Bool.false_eq_true, if_false]
  rw [show ∀ (x : Eval Value) scope, (x.run scope).run i.session = exec x scope i.session from fun _ _ => rfl, hexec]

theorem evaluate_solid (hs : s.Apt nested) (hn : n.Apt nested) (hi : i.session.Solid nested) :
    ∃ v j, i.evaluate s n false = (some v, j) ∧ v.Solid nested ∧ j.session.Solid nested := by
  have hlevel := Evaluator.solid_ofDepth hs (s.depth + 1)
  refine exists_run ?_ ⟨hi.results, hi.spilled, hi.definitions⟩
  exact (hlevel.evaluate _ n rfl hn).bind fun v hv => hlevel.materialize _ v rfl hv

theorem evaluateCell_solid (hs : s.Apt nested) (hi : i.session.Solid nested) {index : Index} {p : Place}
    (hindex : s.index = some index) (hp : index.cells.contains p = true) :
    ∃ v j, i.evaluateCell s p false = .ok (some v, j) ∧ v.Solid nested ∧ j.session.Solid nested := by
  have hattempt : Yields (Session.Solid nested) (Value.Solid nested) { i.scope with waits := false, origin := {} }
      (cellAttempt s p) := by
    refine yields_get fun t ht => ?_
    cases hr : t.pass.results[p]? with
    | some v => exact yields_pure (ht.results p v hr)
    | none => exact Evaluator.yields_calculate hs (Evaluator.solid_ofDepth hs _) rfl p
  obtain ⟨v, j, hrun, hv, hj⟩ := exists_run hattempt hi
  rw [evaluateCell_eq, hindex]
  simp only [hp, Bool.not_true, Bool.false_eq_true, if_false, hrun, keepResult]
  split
  · exact ⟨v, j, rfl, hv, hj⟩
  · exact ⟨v, { j with session := _ }, rfl, hv, hj.store hv⟩

/-- Where no errors are replaced, formulas evaluate to items or to full arrays of items. -/
theorem evaluate_flat (hs : s.Apt False) (hn : n.Apt False) (hi : i.session.Solid False) :
    ∃ v j, i.evaluate s n false = (some v, j) ∧ v.IsFlat ∧ (∀ g, v = .array g → 0 < g.size) ∧ j.session.pass.Flat := by
  obtain ⟨v, j, heq, hv, hj⟩ := evaluate_solid hs hn hi
  refine ⟨v, j, heq, hv.isFlat, ?_, hj.flat⟩
  rintro g rfl
  exact hv.full.2.1

end Interpreter

namespace Evaluator

open Eval

variable {s : Snapshot} {scope : Scope} {t : Session}

lemma exec_readCell_known {below : Evaluator} {p : Place} {v : Value} (hp : p ∉ t.pass.cycles)
    (hv : t.pass.results[p]? = some v) : exec (readCell s below p) scope t = (.ok v.topLeft, t) := by
  rw [readCell, exec_get_bind]
  simp only [Table.contains_eq_false hp, Bool.false_eq_true, if_false, hv, exec_pure]

/-- Where no errors are replaced, cells read as items. -/
theorem exec_readCell_flat (hs : s.Apt False) (hw : scope.waits = false) (ht : t.Solid False) (levels : Nat) (p : Place) :
    ∃ x t', exec (readCell s (ofDepth s levels) p) scope t = (.ok (.ofScalar x), t') ∧ t'.Solid False := by
  obtain ⟨v, t', heq, ht', hv⟩ := yields_readCell hs (solid_ofDepth hs levels) hw p t ht
  have hitem : v.IsItem := hv.2.resolve_left id
  exact ⟨v.toScalar, t', by rw [heq, hitem.ofScalar_toScalar], ht'⟩

end Evaluator

end Spreadsheet
