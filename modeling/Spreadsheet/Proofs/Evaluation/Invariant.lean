import Spreadsheet.Proofs.Evaluation.Likeness
import Spreadsheet.Proofs.Evaluation.Once

/-! Properties of sessions that evaluations keep. What every single change of a session keeps is kept by whole evaluations,
whichever formulas they lead to, and whether they wait for answers or break off. -/

namespace Spreadsheet

open Std Text Dependency Formula Eval

/-- The tree of a definition of a workbook. -/
def Snapshot.tree (snapshot : Snapshot) (book : String) (d : DefinedName) : Node :=
  Node.parse { names := snapshot.names, book := some book } d.formula

/-- A property of sessions that no single change takes away. -/
structure Session.Invariant (snapshot : Snapshot) (I : Session → Prop) : Prop where
  call : ∀ (s : Session) (f : FunctionDef) (args : List Value) (p : Place) (rows cols : Nat),
    I s → I { s with host := (s.host.call f args p rows cols).2 }
  resolve : ∀ (s : Session) (handle : Nat), I s → I { s with host := (s.host.resolve handle).2 }
  store : ∀ (s : Session) (p : Place) (v : Value), I s → I { s with pass := s.pass.store snapshot.books snapshot.formulas p v }
  definition : ∀ (s : Session) (p : Place) (name : String) (d : DefinedName), snapshot.definition? p name = some d → I s →
    I { s with definitions := s.definitions.insert ⟨p.book, d.scope, upper name⟩ (snapshot.tree p.book d) }
  answers : ∀ (s : Session) (answers : ExtTreeMap CallKey Value) (awaited : List (CallKey × Nat)) (entries : Nat),
    I s → I { s with answers, awaited, entries }

namespace Session.Invariant

variable {snapshot : Snapshot} {I : Session → Prop} (h : Invariant snapshot I) {scope : Scope}

include h

section Parts

variable {α : Type} {Q : α → Prop}

omit h in
lemma alike_ask {f : Host → Option Value × Host} (hf : ∀ s, I s → I { s with host := (f s.host).2 }) :
    Alike I (fun _ => True) scope (ask f) (ask f) := by
  intro s hs
  have hhost := hf s hs
  refine ⟨rfl, ?_, fun _ _ => trivial⟩
  rw [exec_ask]
  rcases hr : f s.host with ⟨_ | v, host⟩ <;> rwa [hr] at hhost

lemma alike_await (k : CallKey) (handle : Nat) : Alike I (fun _ => True) scope (await k handle) (await k handle) :=
  alike_modify fun s hs => h.answers s s.answers _ s.entries hs

lemma alike_remember (k : CallKey) (v : Value) : Alike I (fun _ => True) scope (remember k v) (remember k v) :=
  alike_modify fun s hs => h.answers s _ s.awaited s.entries hs

lemma alike_run (key : CallKey) (f : FunctionDef) (args : List Value) :
    Alike I (fun _ => True) scope (Evaluator.run key f args) (Evaluator.run key f args) := by
  unfold Evaluator.run
  refine alike_read (alike_bind (alike_ask fun s hs => h.call s f args _ _ _ hs) fun v _ => ?_)
  split
  · cases v with
    | pending handle =>
      exact alike_bind (h.alike_await _ _) fun _ _ => alike_bind (h.alike_remember _ _) fun _ _ => alike_pure trivial
    | _ => exact alike_bind (h.alike_remember _ _) fun _ _ => alike_pure trivial
  · exact alike_pure trivial

lemma alike_call {start count : Nat} {name : String} {arguments : FunctionDef → Eval (List (ArgumentRule × Value))}
    {P : List (ArgumentRule × Value) → Prop} (hargs : ∀ f, Alike I P scope (arguments f) (arguments f)) :
    Alike I (fun _ => True) scope (Evaluator.call snapshot start name count arguments)
      (Evaluator.call snapshot start name count arguments) := by
  unfold Evaluator.call
  refine alike_read ?_
  extract_lets key made
  have hmade : ∀ u, Alike I (fun _ => True) scope (made u) (made u) := by
    intro u
    simp only [made]
    cases snapshot.registry.find? name with
    | none => exact alike_pure trivial
    | some f =>
      dsimp only
      split
      · exact alike_pure trivial
      · refine alike_bind (hargs f) fun args _ => ?_
        split
        · exact alike_pure trivial
        · exact alike_pure trivial
        · exact h.alike_run key f _
  split
  · refine alike_get fun s _ => ?_
    cases s.answers[key]? with
    | some v =>
      cases v with
      | pending handle => exact alike_bind (h.alike_await _ _) fun _ _ => alike_pure trivial
      | _ => exact alike_pure trivial
    | none => exact hmade ()
  · exact hmade ()

lemma alike_definitionNode {name : String} {d : DefinedName} {k : NameKey}
    (hd : snapshot.definition? scope.cursor.place name = some d) (hk : k = ⟨scope.cursor.place.book, d.scope, upper name⟩) :
    Alike I (fun _ => True) scope (Evaluator.definitionNode snapshot k d) (Evaluator.definitionNode snapshot k d) := by
  subst hk
  unfold Evaluator.definitionNode
  refine alike_get fun s _ => ?_
  cases s.definitions[(⟨scope.cursor.place.book, d.scope, upper name⟩ : NameKey)]? with
  | some n => exact alike_pure trivial
  | none => exact alike_bind (alike_modify fun s hs => h.definition s _ name d hd hs) fun _ _ => alike_pure trivial

end Parts

/-- The habit of keeping the property. -/
def habit : Habit snapshot where
  strict := False
  Holds _ Q scope x := Alike I Q scope x x
  ret := alike_pure
  bind := alike_bind
  widen hx _ := hx.mono
  ofRead := alike_read
  ofGet hf := alike_get fun s _ => hf s
  store p v := alike_modify fun s hs => h.store s p v hs
  enterCell _ hx := hx
  enterName _ hx := hx
  definition hd hk := (h.alike_definitionNode hd hk).mono fun _ _ => False.elim
  call _ := h.alike_call

section Waiting

variable {act : Eval Value}

lemma alike_takeAnswers : Alike I (fun _ => True) scope takeAnswers takeAnswers := by
  have hanswer : ∀ x, Alike I (fun _ => True) scope (answerOf x) (answerOf x) := fun x =>
    alike_bind (alike_ask fun s hs => h.resolve s x.2 hs) fun _ _ => alike_pure trivial
  have hanswers : Alike I (fun _ => True) scope answerAwaited answerAwaited := by
    refine alike_get fun s _ => alike_bind (alike_modify fun s hs => h.answers s s.answers _ s.entries hs) fun _ _ => ?_
    exact (alike_mapM fun x _ => hanswer x).mono fun _ _ => trivial
  intro s hs
  refine AlikeFrom.bind (hanswers s hs) fun answers _ => ?_
  refine alike_bind (Q := fun _ => True) (fun s hs => ⟨rfl, ?_, fun _ _ => trivial⟩) fun _ _ => alike_pure trivial
  rw [exec_forIn_remember (by rintro ⟨k, v⟩ _; rfl)]
  exact h.answers s _ s.awaited s.entries hs

lemma alike_waitFor (hact : Alike I (fun _ => True) scope act act) (rounds : Nat) :
    Alike I (fun _ => True) scope (waitFor act rounds) (waitFor act rounds) := by
  induction rounds with
  | zero => exact alike_pure trivial
  | succ rounds ih =>
    rw [waitFor_succ]
    refine alike_bind (alike_modify fun s hs => h.answers s s.answers _ s.entries hs) fun _ _ => ?_
    refine alike_bind hact fun v _ => alike_get fun s _ => ?_
    split
    · exact alike_pure trivial
    · refine alike_bind h.alike_takeAnswers fun _ _ => alike_get fun s _ => alike_read ?_
      split
      · exact ih
      · exact alike_pure trivial

end Waiting

end Session.Invariant

namespace Interpreter

variable {snapshot : Snapshot} {I : Session → Prop} {i j : Interpreter} {waits : Bool}

lemma invariant_run (h : Session.Invariant snapshot I) {origin : Origin} {act : Eval Value}
    (hact : Alike I (fun _ => True) { i.scope with waits, origin } act act) (hi : I i.session) :
    I (i.run waits origin act).2.session := by
  unfold run
  extract_lets before scope whole
  have hwhole : Alike I (fun _ => True) scope whole whole := by
    cases waits with
    | true =>
      refine alike_bind (h.alike_waitFor hact _) fun v _ => alike_bind (Q := fun _ => True) ?_ fun _ _ => alike_pure trivial
      exact alike_modify fun s hs => h.answers s ∅ s.awaited s.entries hs
    | false => exact alike_bind hact fun v _ => alike_pure trivial
  have hend := (hwhole i.session hi).2.1
  have hexec : (whole.run scope).run i.session = exec whole scope i.session := rfl
  rw [hexec]
  rcases hx : exec whole scope i.session with ⟨there | v, t⟩ <;> rwa [hx] at hend

lemma invariant_evaluate (h : Session.Invariant snapshot I) (n : Node) (hi : I i.session) :
    I (i.evaluate snapshot n waits).2.session :=
  invariant_run h (h.habit.value False.elim False.elim)
    (h.answers i.session i.session.answers i.session.awaited (i.session.entries + 1) hi)

lemma invariant_keepResult (h : Session.Invariant snapshot I) (p : Place) {a : Option Value × Interpreter}
    (ha : I a.2.session) : I (keepResult snapshot.books snapshot.formulas p a).2.session := by
  rcases a with ⟨_ | v, i⟩
  · exact ha
  · rw [keepResult]
    split
    · exact ha
    · exact h.store i.session p v ha

lemma invariant_evaluateCell (h : Session.Invariant snapshot I) {p : Place} {o : Option Value}
    (hrun : i.evaluateCell snapshot p waits = .ok (o, j)) (hi : I i.session) : I j.session := by
  rw [evaluateCell_eq] at hrun
  split at hrun
  · cases hrun
  · rename_i index hindex
    split at hrun
    · cases hrun
    · have hend : I (i.run waits {} (cellAttempt snapshot p)).2.session :=
        invariant_run h (h.habit.cellAttempt False.elim p) hi
      have hkeep := invariant_keepResult h p hend
      rw [Snapshot.formulas, hindex, Option.getD_some, Except.ok.inj hrun] at hkeep
      exact hkeep

end Interpreter

end Spreadsheet
