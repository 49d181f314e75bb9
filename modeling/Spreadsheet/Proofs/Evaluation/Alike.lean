import Spreadsheet.Evaluation.Interpreter
import Spreadsheet.Proofs.Evaluation.Formula

/-! Two evaluations side by side. What holds of the cells and names that formulas lead to holds of whole formulas,
of repeated attempts, and of what an interpreter does. -/

namespace Spreadsheet

open Dependency Formula Std Text

namespace Eval

variable {α β : Type} {I : Session → Prop} {Q : α → Prop} {R : β → Prop} {scope : Scope}

/-- Two evaluations do the same from every session of a kind, and stay with sessions of this kind. -/
def Alike (I : Session → Prop) (Q : α → Prop) (scope : Scope) (x y : Eval α) : Prop :=
  ∀ s, I s → exec x scope s = exec y scope s ∧ I (exec x scope s).2 ∧ ∀ a, (exec x scope s).1 = .ok a → Q a

/-- They do so from one session at least. -/
def AlikeFrom (I : Session → Prop) (Q : α → Prop) (scope : Scope) (x y : Eval α) (s : Session) : Prop :=
  exec x scope s = exec y scope s ∧ I (exec x scope s).2 ∧ ∀ a, (exec x scope s).1 = .ok a → Q a

lemma alike_pure {a : α} (ha : Q a) : Alike I Q scope (pure a) (pure a) := by
  intro s hs
  refine ⟨rfl, hs, ?_⟩
  rintro b ⟨⟩
  exact ha

lemma Alike.mono {Q' : α → Prop} {x y : Eval α} (h : Alike I Q scope x y) (hq : ∀ a, Q a → Q' a) :
    Alike I Q' scope x y := by
  intro s hs
  obtain ⟨heq, hI, hok⟩ := h s hs
  exact ⟨heq, hI, fun a ha => hq a (hok a ha)⟩

lemma Alike.and {Q' : α → Prop} {x y z : Eval α} (h : Alike I Q scope x y) (h' : Alike I Q' scope x z) :
    Alike I (fun a => Q a ∧ Q' a) scope x y := by
  intro s hs
  obtain ⟨heq, hI, hok⟩ := h s hs
  exact ⟨heq, hI, fun a ha => ⟨hok a ha, (h' s hs).2.2 a ha⟩⟩

lemma Alike.left {x y : Eval α} (h : Alike I Q scope x y) : Alike I Q scope x x := fun s hs => ⟨rfl, (h s hs).2⟩

lemma Alike.congr {x y : Eval α} (h : Alike I Q scope y y) (heq : ∀ s, exec x scope s = exec y scope s) :
    Alike I Q scope x x := by
  intro s hs
  rw [heq s]
  exact h s hs

lemma AlikeFrom.bind {x y : Eval α} {f g : α → Eval β} {s : Session} (hx : AlikeFrom I Q scope x y s)
    (hf : ∀ a, Q a → Alike I R scope (f a) (g a)) : AlikeFrom I R scope (x >>= f) (y >>= g) s := by
  obtain ⟨heq, hI, hok⟩ := hx
  unfold AlikeFrom
  rw [exec_bind, exec_bind, ← heq]
  rcases hr : exec x scope s with ⟨e | a, s'⟩
  · rw [hr] at hI
    exact ⟨rfl, hI, by rintro b ⟨⟩⟩
  · rw [hr] at hI hok
    exact hf a (hok a rfl) s' hI

lemma alike_bind {x y : Eval α} {f g : α → Eval β} (hx : Alike I Q scope x y)
    (hf : ∀ a, Q a → Alike I R scope (f a) (g a)) : Alike I R scope (x >>= f) (y >>= g) :=
  fun s hs => AlikeFrom.bind (hx s hs) hf

lemma alike_map {x y : Eval α} {f : α → β} (hx : Alike I Q scope x y) (hf : ∀ a, Q a → R (f a)) :
    Alike I R scope (do return f (← x)) (do return f (← y)) :=
  alike_bind hx fun a ha => alike_pure (hf a ha)

lemma alike_read {f g : Scope → Eval β} (h : Alike I R scope (f scope) (g scope)) :
    Alike I R scope (read >>= f) (read >>= g) := h

lemma alike_get {f g : Session → Eval β} (h : ∀ s, I s → Alike I R scope (f s) (g s)) :
    Alike I R scope (get >>= f) (get >>= g) := fun s hs => h s hs s hs

lemma alike_modify {f : Session → Session} (h : ∀ s, I s → I (f s)) :
    Alike I (fun _ => True) scope (modify f) (modify f) := fun s hs => ⟨rfl, h s hs, fun _ _ => trivial⟩

lemma alike_ask {Q : Value → Prop} {f : Host → Option Value × Host} (hI : ∀ s host, I s → I { s with host })
    (hf : ∀ host v, (f host).1 = some v → Q v) : Alike I Q scope (ask f) (ask f) := by
  intro s hs
  refine ⟨rfl, ?_⟩
  rw [exec_ask]
  rcases hr : f s.host with ⟨_ | v, host⟩
  · exact ⟨hI s host hs, by rintro a ⟨⟩⟩
  · refine ⟨hI s host hs, ?_⟩
    rintro a ⟨⟩
    exact hf s.host v (by rw [hr])

lemma alike_withReader {x y : Eval α} (change : Scope → Scope) (h : Alike I Q (change scope) x y) :
    Alike I Q scope (withReader change x) (withReader change y) := h

lemma alike_mapM {l : List α} {f g : α → Eval β} (h : ∀ a ∈ l, Alike I R scope (f a) (g a)) :
    Alike I (fun bs => ∀ b ∈ bs, R b) scope (l.mapM f) (l.mapM g) := by
  induction l with
  | nil => exact alike_pure (by simp)
  | cons a l ih =>
    obtain ⟨ha, hl⟩ := List.forall_mem_cons.1 h
    rw [List.mapM_cons, List.mapM_cons]
    refine alike_bind ha fun b hb => alike_bind (ih hl) fun bs hbs => alike_pure ?_
    exact List.forall_mem_cons.2 ⟨hb, hbs⟩

/-- In some pass with a property the cell is still to be calculated. -/
def Due (J : Pass → Prop) (p : Place) : Prop := ∃ s, J s ∧ p ∈ s.dirty

/-- Two evaluations do the same from every pass with a property, and leave passes with it. -/
abbrev InStep (J : Pass → Prop) (scope : Scope) (x y : Eval α) : Prop :=
  Alike (fun s => J s.pass) (fun _ => True) scope x y

variable {J : Pass → Prop} {x y : Eval α}

lemma Alike.inStep (h : Alike (fun s => J s.pass) Q scope x y) : InStep J scope x y := h.mono fun _ _ => trivial

lemma inStep_pure (a : α) : InStep J scope (pure a) (pure a) := alike_pure trivial

lemma inStep_bind {f g : α → Eval β} (hx : InStep J scope x y) (hf : ∀ a, InStep J scope (f a) (g a)) :
    InStep J scope (x >>= f) (y >>= g) := alike_bind hx fun a _ => hf a

lemma inStep_map {f : α → β} (hx : InStep J scope x y) : InStep J scope (do return f (← x)) (do return f (← y)) :=
  inStep_bind hx fun _ => inStep_pure _

lemma inStep_modify {f : Session → Session} (h : ∀ s, (f s).pass = s.pass) : InStep J scope (modify f) (modify f) := by
  refine alike_modify fun s hs => ?_
  rwa [h s]

lemma inStep_ask (f : Host → Option Value × Host) : InStep J scope (ask f) (ask f) :=
  alike_ask (fun _ _ hs => hs) fun _ _ _ => trivial

lemma inStep_mapM {l : List α} {f g : α → Eval β} (h : ∀ a, InStep J scope (f a) (g a)) :
    InStep J scope (l.mapM f) (l.mapM g) := (alike_mapM fun a _ => h a).inStep

lemma inStep_forIn {l : List α} {f : α → β → Eval (ForInStep β)} (h : ∀ a b, InStep J scope (f a b) (f a b)) (b : β) :
    InStep J scope (forIn l b f) (forIn l b f) := by
  induction l generalizing b with
  | nil => exact inStep_pure b
  | cons a l ih =>
    rw [List.forIn_cons]
    refine inStep_bind (h a b) fun step => ?_
    cases step with
    | done b => exact inStep_pure b
    | yield b => exact ih b

lemma inStep_remember (k : CallKey) (v : Value) : InStep J scope (remember k v) (remember k v) :=
  inStep_modify fun _ => rfl

lemma inStep_await (k : CallKey) (handle : Nat) : InStep J scope (await k handle) (await k handle) :=
  inStep_modify fun _ => rfl

/-! Repeated attempts. -/

variable {Q R : Value → Prop} {x y : Eval Value}

lemma inStep_answerAwaited : InStep J scope answerAwaited answerAwaited := by
  unfold answerAwaited
  refine alike_get fun s hs => ?_
  exact inStep_bind (inStep_modify fun _ => rfl) fun _ => inStep_mapM fun k => inStep_map (inStep_ask _)

lemma alike_waitFor (h : Alike (fun s => J s.pass) Q scope x y) (hQ : ∀ v, Q v → R v.settled)
    (hR : R (.error .calculation)) (rounds : Nat) :
    Alike (fun s => J s.pass) R scope (waitFor x rounds) (waitFor y rounds) := by
  induction rounds with
  | zero => exact alike_pure hR
  | succ rounds ih =>
    unfold waitFor
    refine alike_bind (inStep_modify fun _ => rfl) fun _ _ => alike_bind h fun v hv => alike_get fun s hs => ?_
    split
    · exact alike_pure (hQ v hv)
    · refine alike_bind inStep_answerAwaited fun answers _ => ?_
      refine alike_bind (inStep_forIn ?_ _) fun _ _ => alike_get fun s hs => alike_read ?_
      · rintro ⟨key, v⟩ u
        exact inStep_bind (inStep_remember key v) fun _ => inStep_pure _
      · split
        · exact ih
        · exact alike_pure hR

end Eval

namespace Snapshot

/-- The definition that a name has in a cell. -/
def definition? (s : Snapshot) (p : Place) (name : String) : Option DefinedName :=
  (s.books.book? p.book).bind (·.definition? name (some p.sheet))

end Snapshot

lemma Pass.mem_dirty_of_dirtyAnchorOver? {s : Pass} {a p : Place} (h : s.dirtyAnchorOver? p = some a) : a ∈ s.dirty := by
  obtain ⟨⟨b, r⟩, hb, rfl⟩ := Option.map_eq_some_iff.1 h
  have hover := List.find?_some hb
  simp only [Bool.and_eq_true] at hover
  exact ExtTreeSet.contains_iff_mem.1 hover.2

namespace Evaluator

open Eval Value

variable {snapshot : Snapshot} {below below' : Evaluator} {scope : Scope} {J : Pass → Prop}

/-- Cells are calculated in step when it is their turn: in a pass in which they are still to be calculated. -/
def Turns (snapshot : Snapshot) (below below' : Evaluator) (J : Pass → Prop) (scope : Scope) : Prop :=
  ∀ (a : Place) (s : Session), J s.pass → a ∈ s.pass.dirty → AlikeFrom (fun t => J t.pass) (fun _ => True) scope
    (calculate snapshot below a) (calculate snapshot below' a) s

lemma turns_of_due (h : ∀ a, Due J a → InStep J scope (calculate snapshot below a) (calculate snapshot below' a)) :
    Turns snapshot below below' J scope := fun a s hs ha => h a ⟨s.pass, hs, ha⟩ s hs

lemma inStep_readCell (h : Turns snapshot below below' J scope) (p : Place) :
    InStep J scope (readCell snapshot below p) (readCell snapshot below' p) := by
  have hsettled : InStep J scope (settledValue snapshot p) (settledValue snapshot p) :=
    alike_get fun _ _ => inStep_pure _
  intro s hs
  unfold readCell
  simp only [exec_get_bind]
  split
  · exact inStep_pure _ s hs
  · cases s.pass.results[p]? with
    | some v => exact inStep_pure _ s hs
    | none =>
      dsimp only
      split
      · rename_i hp
        exact (h p s hs (ExtTreeSet.contains_iff_mem.1 hp)).bind fun _ _ => inStep_pure _
      · cases ha : s.pass.dirtyAnchorOver? p with
        | none => exact hsettled s hs
        | some a =>
          refine (h a s hs (Pass.mem_dirty_of_dirtyAnchorOver? ha)).bind fun v _ => ?_
          split
          · exact inStep_pure _
          · exact hsettled

lemma inStep_readRegion (h : Turns snapshot below below' J scope) (r : Region) :
    InStep J scope (readRegion snapshot below r) (readRegion snapshot below' r) := by
  unfold readRegion
  cases snapshot.books.sheet? r.book r.sheet with
  | none => exact inStep_pure _
  | some sheet =>
    dsimp only
    split
    · exact inStep_readCell h _
    · exact inStep_bind (inStep_mapM fun q => inStep_readCell h q) fun _ => inStep_pure _

lemma inStep_materialize (h : Turns snapshot below below' J scope) (v : Value) :
    InStep J scope (materializeWith snapshot below v) (materializeWith snapshot below' v) := by
  cases v with
  | reference r => exact inStep_readRegion h r
  | _ => exact inStep_pure _

lemma inStep_prepare (h : Turns snapshot below below' J scope)
    (rule : ArgumentRule) (v : Value) :
    InStep J scope (prepare snapshot below rule v) (prepare snapshot below' rule v) := by
  unfold prepare
  split
  · exact inStep_pure _
  · cases rule with
    | reference | referenceOrArray => exact inStep_pure _
    | scalar => exact inStep_map (inStep_materialize h v)
    | number => exact inStep_bind (inStep_materialize h v) fun _ => inStep_pure _
    | any | raw => exact inStep_materialize h v

lemma inStep_run (key : CallKey) (f : FunctionDef) (args : List Value) :
    InStep J scope (run key f args) (run key f args) := by
  unfold run
  refine alike_read (inStep_bind (inStep_ask _) fun v => ?_)
  split
  · cases v with
    | pending handle =>
      exact inStep_bind (inStep_await _ _) fun _ => inStep_bind (inStep_remember _ _) fun _ => inStep_pure _
    | _ => exact inStep_bind (inStep_remember _ _) fun _ => inStep_pure _
  · exact inStep_pure _

lemma inStep_call {start count : Nat} {name : String}
    {arguments arguments' : FunctionDef → Eval (List (ArgumentRule × Value))}
    (h : ∀ f, InStep J scope (arguments f) (arguments' f)) :
    InStep J scope (call snapshot start name count arguments) (call snapshot start name count arguments') := by
  unfold call
  refine alike_read ?_
  extract_lets key made made'
  have hmade : ∀ u, InStep J scope (made u) (made' u) := by
    intro u
    simp only [made, made']
    cases snapshot.registry.find? name with
    | none => exact inStep_pure _
    | some f =>
      dsimp only
      split
      · exact inStep_pure _
      · refine inStep_bind (h f) fun args => ?_
        split
        · exact inStep_pure _
        · exact inStep_pure _
        · exact inStep_run _ _ _
  split
  · refine alike_get fun s hs => ?_
    cases s.answers[key]? with
    | none => exact hmade ()
    | some v =>
      cases v with
      | pending handle => exact inStep_bind (inStep_await _ _) fun _ => inStep_pure _
      | _ => exact inStep_pure _
  · exact hmade ()

lemma inStep_definitionNode (key : NameKey) (d : DefinedName) :
    InStep J scope (definitionNode snapshot key d) (definitionNode snapshot key d) := by
  unfold definitionNode
  refine alike_get fun s hs => ?_
  cases s.definitions[key]? with
  | some n => exact inStep_pure n
  | none => exact inStep_bind (inStep_modify fun _ => rfl) fun _ => inStep_pure _

/-! Whole formulas, as long as what holds of two evaluators holds of the cells and the names that they are led to. -/

section

mutual

theorem inStep_evaluate (hcell : Turns snapshot below below' J scope)
    (hname : ∀ name, InStep J scope (evaluateName snapshot below name) (evaluateName snapshot below' name)) :
    ∀ n : Node, InStep J scope (evaluateWith snapshot below n) (evaluateWith snapshot below' n)
  | .literal _ _ | .missing _ | .invalid _ _ => by
    rw [evaluateWith, evaluateWith]
    exact inStep_pure _
  | .reference _ _ _ _ => by
    rw [evaluateWith, evaluateWith]
    exact alike_read (inStep_pure _)
  | .name _ name => by
    rw [evaluateWith, evaluateWith]
    exact hname name
  | .unary _ _ n => by
    rw [evaluateWith, evaluateWith]
    exact inStep_bind (inStep_evaluate hcell hname n) fun v =>
      inStep_bind (inStep_materialize hcell v) fun _ => inStep_pure _
  | .binary _ op l r => by
    have hl := inStep_evaluate hcell hname l
    have hr := inStep_evaluate hcell hname r
    rw [evaluateWith, evaluateWith]
    split
    · exact inStep_bind hl fun v => inStep_bind hr fun _ => inStep_pure _
    · refine inStep_bind hl fun v => inStep_bind (inStep_materialize hcell v) fun v => ?_
      exact inStep_bind hr fun w => inStep_bind (inStep_materialize hcell w) fun _ => inStep_pure _
  | .call _ _ args => by
    rw [evaluateWith, evaluateWith]
    exact inStep_call fun f => inStep_arguments hcell hname f 0 args
  | .array _ rows => by
    rw [evaluateWith, evaluateWith]
    exact inStep_map (inStep_rows hcell hname rows)
  | .union _ items => by
    rw [evaluateWith, evaluateWith]
    exact inStep_map (inStep_all hcell hname items)

theorem inStep_arguments (hcell : Turns snapshot below below' J scope)
    (hname : ∀ name, InStep J scope (evaluateName snapshot below name) (evaluateName snapshot below' name))
    (f : FunctionDef) : ∀ (i : Nat) (ns : List Node),
      InStep J scope (evaluateArguments snapshot below f i ns) (evaluateArguments snapshot below' f i ns)
  | _, [] => by
    rw [evaluateArguments, evaluateArguments]
    exact inStep_pure _
  | i, n :: ns => by
    rw [evaluateArguments, evaluateArguments]
    refine inStep_bind (inStep_evaluate hcell hname n) fun v => inStep_bind (inStep_prepare hcell _ v) fun w => ?_
    exact inStep_bind (inStep_arguments hcell hname f (i + 1) ns) fun _ => inStep_pure _

theorem inStep_all (hcell : Turns snapshot below below' J scope)
    (hname : ∀ name, InStep J scope (evaluateName snapshot below name) (evaluateName snapshot below' name)) :
    ∀ ns : List Node, InStep J scope (evaluateAll snapshot below ns) (evaluateAll snapshot below' ns)
  | [] => by
    rw [evaluateAll, evaluateAll]
    exact inStep_pure _
  | n :: ns => by
    rw [evaluateAll, evaluateAll]
    refine inStep_bind (inStep_evaluate hcell hname n) fun v => inStep_bind (inStep_materialize hcell v) fun w => ?_
    exact inStep_bind (inStep_all hcell hname ns) fun _ => inStep_pure _

theorem inStep_rows (hcell : Turns snapshot below below' J scope)
    (hname : ∀ name, InStep J scope (evaluateName snapshot below name) (evaluateName snapshot below' name)) :
    ∀ rows : List (List Node), InStep J scope (evaluateRows snapshot below rows) (evaluateRows snapshot below' rows)
  | [] => by
    rw [evaluateRows, evaluateRows]
    exact inStep_pure _
  | ns :: rows => by
    rw [evaluateRows, evaluateRows]
    exact inStep_bind (inStep_all hcell hname ns) fun _ =>
      inStep_bind (inStep_rows hcell hname rows) fun _ => inStep_pure _

end

end

/-! What formulas lead to, as long as it holds of the evaluators on the level below. -/

lemma inStep_evaluateName {name : String}
    (h : ∀ d n, snapshot.definition? scope.cursor.place name = some d →
      (⟨scope.cursor.place.book, d.scope, upper name⟩ : NameKey) ∉ scope.names →
      InStep J (scope.enterName ⟨scope.cursor.place.book, d.scope, upper name⟩) (below.evaluate n) (below'.evaluate n)) :
    InStep J scope (evaluateName snapshot below name) (evaluateName snapshot below' name) := by
  unfold evaluateName
  apply alike_read
  dsimp only
  rw [← Snapshot.definition?]
  cases hd : snapshot.definition? scope.cursor.place name with
  | none => exact inStep_pure _
  | some d =>
    dsimp only
    split
    · exact inStep_pure _
    · rename_i hk
      refine inStep_bind (inStep_definitionNode _ _) fun n => alike_withReader _ (h d n hd ?_)
      rwa [ExtTreeSet.contains_iff_mem] at hk

lemma alike_calculate {p : Place} {Q R : Value → Prop}
    (h : ∀ e, snapshot.formulas.cell? p = some e → p ∉ scope.cells →
      Alike (fun s => J s.pass) Q (scope.enterCell (snapshot.books.cursor p)) (below.value e.node) (below'.value e.node))
    (hJ : ∀ e, snapshot.formulas.cell? p = some e → ∀ s v, J s → Q v → J (s.store snapshot.books snapshot.formulas p v))
    (hQ : ∀ v, Q v → R v) (hR : ∀ v : Value, v.IsItem → R v) (hresult : ∀ s v, J s → s.results[p]? = some v → R v) :
    Alike (fun s => J s.pass) R scope (calculate snapshot below p) (calculate snapshot below' p) := by
  unfold calculate
  apply alike_read
  split
  · exact alike_pure (hR _ trivial)
  · rename_i hp
    rw [ExtTreeSet.contains_iff_mem] at hp
    cases he : snapshot.formulas.cell? p with
    | none =>
      refine alike_pure (hR _ ?_)
      unfold Snapshot.stored
      split
      · exact isItem_ofScalar _
      · trivial
    | some e =>
      dsimp only
      refine alike_bind (alike_withReader _ (h e he hp)) fun v hv => ?_
      split
      · exact alike_pure (hQ v hv)
      · refine alike_bind (alike_modify fun s hs => hJ e he s.pass v hs hv) fun _ _ => ?_
        refine alike_get fun s hs => alike_pure ?_
        cases hw : s.pass.results[p]? with
        | none => exact hR _ trivial
        | some w => exact hresult s.pass w hs hw

lemma inStep_calculate {p : Place} {Q : Value → Prop}
    (h : ∀ e, snapshot.formulas.cell? p = some e → p ∉ scope.cells →
      Alike (fun s => J s.pass) Q (scope.enterCell (snapshot.books.cursor p)) (below.value e.node) (below'.value e.node))
    (hJ : ∀ e, snapshot.formulas.cell? p = some e → ∀ s v, J s → Q v → J (s.store snapshot.books snapshot.formulas p v)) :
    InStep J scope (calculate snapshot below p) (calculate snapshot below' p) :=
  alike_calculate h hJ (fun _ _ => trivial) (fun _ _ => trivial) fun _ _ _ _ => trivial

end Evaluator

end Spreadsheet
