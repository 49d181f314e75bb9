import Spreadsheet.Proofs.Evaluation.Course

/-! Evaluations side by side, where one of them starts new generations of calculations and the other one does not. Otherwise
their functions are the same and pure. Then they give the same values, and handles count from different numbers at most. -/

namespace Spreadsheet

open Std Dependency Formula

/-- No handle is in the value, at any depth. -/
inductive Value.HandleFree : Value → Prop
  | flat {v : Value} (h : v.IsFlat) : HandleFree v
  | reference (r : Region) : HandleFree (.reference r)
  | array {g : Grid Value} (h : ∀ v ∈ g.items, HandleFree v) : HandleFree (.array g)

namespace Value

lemma handleFree_array {g : Grid Value} : HandleFree (.array g) ↔ ∀ v ∈ g.items, v.HandleFree := by
  refine ⟨fun h v hv => ?_, .array⟩
  cases h with
  | flat h => exact .flat (h.2 v hv).isFlat
  | array h => exact h v hv

lemma kept_handleFree : Kept HandleFree := ⟨fun _ => .flat, .reference, fun _ => handleFree_array⟩

lemma HandleFree.isPending_eq {v : Value} (h : v.HandleFree) : v.isPending = false := by
  cases h with
  | flat h => exact h.isPending_eq
  | _ => rfl

lemma HandleFree.settled {v : Value} (h : v.HandleFree) : v.settled.HandleFree := by
  cases v with
  | reference | pending => exact .flat trivial
  | _ => exact h

end Value

namespace Pass

variable {s : Pass} {p : Place} {v : Value}

lemma Only.store {books : Books} {index : Index} (h : s.Only Value.HandleFree) (hv : v.HandleFree) :
    (s.store books index p v).Only Value.HandleFree where
  results := results_of_store h.results hv (.flat trivial)
  spilled := spilled_of_store h.spilled fun _ hg => Value.handleFree_array.1 (hg ▸ hv)

end Pass

namespace Task

/-- The task without the generations that it starts. -/
def calm : Task → Task
  | answer v => .answer v
  | fault => .fault
  | later work => .later work.calm
  | supersede next => next.calm

/-- Handles are in the answer only because it is put off. -/
def HandleFree : Task → Prop
  | answer v => v.HandleFree
  | fault => True
  | later work => work.HandleFree
  | supersede next => next.HandleFree

end Task

/-- The function without the generations that it starts. -/
def FunctionDef.calm (f : FunctionDef) : FunctionDef := { f with run := fun args site => (f.run args site).calm }

/-- Apart from the generations that it starts, the function only depends on its arguments and on where and when it is called,
and the handles that it answers are those of its own work. -/
structure FunctionDef.Pure (f : FunctionDef) : Prop where
  handleFree : ∀ (args : List Value) (site : CallSite), (∀ v ∈ args, v.HandleFree) → (f.run args site).HandleFree
  calm : ∀ (args : List Value) (site : CallSite) (draw : Nat), (∀ v ∈ args, v.HandleFree) →
    (f.run args { site with draw }).calm = (f.run args site).calm

namespace Registry

/-- The registry without the generations that its functions start. -/
def calm (r : Registry) : Registry := ⟨r.functions.map fun _ f => f.calm⟩

lemma find?_calm (r : Registry) (name : String) : r.calm.find? name = (r.find? name).map FunctionDef.calm :=
  ExtTreeMap.getElem?_map

def Pure (r : Registry) : Prop := ∀ (name : String) (f : FunctionDef), r.find? name = some f → f.Pure

end Registry

def Snapshot.calm (s : Snapshot) : Snapshot := { s with registry := s.registry.calm }

lemma Snapshot.beside_calm (s : Snapshot) : s.Beside s.calm := ⟨fun _ _ => rfl, fun _ _ => rfl, rfl, rfl⟩

lemma Table.rel_insert {ι κ α β : Type} [Ord κ] [TransOrd κ] [LawfulEqOrd κ] {R : α → β → Prop} {f g : ι → κ}
    (hf : f.Injective) (hg : g.Injective) {m : ExtTreeMap κ α} {m' : ExtTreeMap κ β}
    (h : ∀ i, Option.Rel R m[f i]? m'[g i]?) (j : ι) {a : α} {b : β} (hab : R a b) (i : ι) :
    Option.Rel R (m.insert (f j) a)[f i]? (m'.insert (g j) b)[g i]? := by
  rw [ExtTreeMap.getElem?_insert, ExtTreeMap.getElem?_insert]
  by_cases hij : j = i
  · subst hij
    rw [if_pos Std.compare_self, if_pos Std.compare_self]
    exact .some hab
  · rw [if_neg (by rw [Std.compare_eq_iff_eq]; exact hf.ne hij), if_neg (by rw [Std.compare_eq_iff_eq]; exact hg.ne hij)]
    exact h i

/-- Two calculations: the handles that they count from, and their generations. Only on the left further ones are started. -/
structure Twin where
  start : Nat
  start' : Nat
  generation : Nat
  generation' : Nat

namespace Twin

variable (T : Twin)

def Handles (handle handle' : Nat) : Prop := ∃ i, handle = T.start + i ∧ handle' = T.start' + i

abbrev Values : Value → Value → Prop := Value.Like Value.HandleFree T.Handles

/-- Hosts that have done the same, except for generations. -/
structure Hosts (h h' : Host) : Prop where
  given : T.Handles h.nextHandle h'.nextHandle
  settled : ∀ i, Option.Rel T.Values h.settled[T.start + i]? h'.settled[T.start' + i]?
  waiting : ∀ i, Option.Rel (fun work work' : Task => work' = work.calm ∧ work.HandleFree)
    h.waiting[T.start + i]? h'.waiting[T.start' + i]?
  moment : h'.moment = h.moment
  latest : h'.generations.latest = T.generation'

/-- Sessions with such hosts that are the same otherwise. -/
structure Sessions (s t : Session) : Prop where
  hosts : T.Hosts s.host t.host
  pass : t.pass = s.pass
  only : s.pass.Only Value.HandleFree
  definitions : t.definitions = s.definitions
  answers : ∀ k : CallKey, Option.Rel T.Values s.answers[k]? t.answers[k]?
  awaited : List.Forall₂ (fun x y => x.1 = y.1 ∧ T.Handles x.2 y.2) s.awaited t.awaited
  entries : t.entries = s.entries

def left (scope : Scope) : Scope := { scope with generation := T.generation }

def right (scope : Scope) : Scope := { scope with generation := T.generation' }

/-- Both evaluations end with what goes together, or both break off at the same point. -/
inductive Ends {α : Type} (R : α → α → Prop) : Except Scope α × Session → Except Scope α × Session → Prop
  | ok {a b : α} {s t : Session} (hab : R a b) (hst : T.Sessions s t) : Ends R (.ok a, s) (.ok b, t)
  | error {there : Scope} {s t : Session} (hst : T.Sessions s t) :
      Ends R (.error (T.left there), s) (.error (T.right there), t)

open Eval in
/-- From sessions that go together, two evaluations end together. -/
def Holds {α : Type} (R : α → α → Prop) (scope : Scope) (x y : Eval α) : Prop :=
  ∀ s t, T.Sessions s t → T.Ends R (exec x (T.left scope) s) (exec y (T.right scope) t)

variable {T} {h h' : Host} {s t : Session} {scope : Scope}

section Hosts

lemma Hosts.issueGeneration (hh : T.Hosts h h') : T.Hosts h.issueGeneration h' :=
  ⟨hh.given, hh.settled, hh.waiting, hh.moment, hh.latest⟩

lemma Hosts.perform (hh : T.Hosts h h') {work : Task} (hw : work.HandleFree) :
    Option.Rel T.Values (h.perform work).1 (h'.perform work.calm).1 ∧
      T.Hosts (h.perform work).2 (h'.perform work.calm).2 := by
  induction work generalizing h with
  | answer v => exact ⟨.some (.inl ⟨rfl, hw⟩), hh⟩
  | fault => exact ⟨.none, hh⟩
  | later work =>
    obtain ⟨n, hn, hn'⟩ := hh.given
    refine ⟨.some (.inr ⟨_, _, rfl, rfl, n, hn, hn'⟩), ⟨n + 1, congrArg (· + 1) hn, congrArg (· + 1) hn'⟩, hh.settled, ?_,
      hh.moment, hh.latest⟩
    intro i
    have hinsert := Table.rel_insert (add_right_injective T.start) (add_right_injective T.start') hh.waiting n
      (a := work) (b := work.calm) ⟨rfl, hw⟩ i
    rwa [← hn, ← hn'] at hinsert
  | supersede next ih => exact ih hh.issueGeneration hw

lemma Hosts.call (hh : T.Hosts h h') {f : FunctionDef} (hf : f.Pure) {args : List Value} (hargs : ∀ v ∈ args, v.HandleFree)
    (p : Place) (rows cols : Nat) : Option.Rel T.Values (h.call f args p rows cols).1 (h'.call f.calm args p rows cols).1 ∧
      T.Hosts (h.call f args p rows cols).2 (h'.call f.calm args p rows cols).2 := by
  have hrun : T.Hosts (h.countRun f.name).draw.2 (h'.countRun f.name).draw.2 :=
    ⟨hh.given, hh.settled, hh.waiting, hh.moment, hh.latest⟩
  have hcall : h'.call f.calm args p rows cols = (h'.countRun f.name).draw.2.perform
      (f.run args ⟨p, rows, cols, h.moment, (h'.countRun f.name).draw.1⟩).calm := by
    rw [← hh.moment]
    rfl
  have hcalm := hf.calm args ⟨p, rows, cols, h.moment, (h.countRun f.name).draw.1⟩ (h'.countRun f.name).draw.1 hargs
  rw [hcall, hcalm]
  exact hrun.perform (hf.handleFree args _ hargs)

lemma Hosts.resolve (hh : T.Hosts h h') {handle handle' : Nat} (hk : T.Handles handle handle') :
    Option.Rel T.Values (h.resolve handle).1 (h'.resolve handle').1 ∧ T.Hosts (h.resolve handle).2 (h'.resolve handle').2 := by
  obtain ⟨i, rfl, rfl⟩ := hk
  have hsettled := hh.settled i
  have hwaiting := hh.waiting i
  unfold Host.resolve
  generalize h.settled[T.start + i]? = o at hsettled ⊢
  generalize h'.settled[T.start' + i]? = o' at hsettled ⊢
  cases hsettled with
  | some hvw => exact ⟨.some hvw, hh⟩
  | none =>
    generalize h.waiting[T.start + i]? = o at hwaiting ⊢
    generalize h'.waiting[T.start' + i]? = o' at hwaiting ⊢
    cases hwaiting with
    | none => exact ⟨.some (.inl ⟨rfl, .flat trivial⟩), hh⟩
    | @some work work' hwork =>
      obtain ⟨rfl, hfree⟩ := hwork
      obtain ⟨hanswer, hhosts⟩ := hh.perform hfree
      dsimp only
      generalize h.perform work = x at hanswer hhosts ⊢
      generalize h'.perform work.calm = y at hanswer hhosts ⊢
      obtain ⟨_ | v, k⟩ := x <;> obtain ⟨_ | w, k'⟩ := y <;> cases hanswer
      · exact ⟨.none, hhosts⟩
      · rename_i hvw
        exact ⟨.some hvw, hhosts.given, Table.rel_insert (add_right_injective T.start) (add_right_injective T.start')
          hhosts.settled i hvw, hhosts.waiting, hhosts.moment, hhosts.latest⟩

end Hosts

section Rules

open Eval

variable {α β : Type} {R : α → α → Prop} {R' : β → β → Prop} {P : α → α → Prop} {x y : Eval α}

lemma holds_pure {a b : α} (hab : R a b) : T.Holds R scope (pure a) (pure b) := fun _ _ hst => .ok hab hst

lemma holds_bind {f g : α → Eval β} (hx : T.Holds R scope x y) (hf : ∀ a b, R a b → T.Holds R' scope (f a) (g b)) :
    T.Holds R' scope (x >>= f) (y >>= g) := by
  intro s t hst
  have hends := hx s t hst
  rw [exec_bind, exec_bind]
  generalize exec x (T.left scope) s = e at hends ⊢
  generalize exec y (T.right scope) t = e' at hends ⊢
  cases hends with
  | ok hab hst => exact hf _ _ hab _ _ hst
  | error hst => exact .error hst

lemma holds_read {f g : Scope → Eval α} (h : T.Holds R scope (f (T.left scope)) (g (T.right scope))) :
    T.Holds R scope (read >>= f) (read >>= g) := h

lemma holds_get {f g : Session → Eval α} (h : ∀ s t, T.Sessions s t → T.Holds R scope (f s) (g t)) :
    T.Holds R scope (get >>= f) (get >>= g) := fun s t hst => h s t hst s t hst

lemma holds_modify {f g : Session → Session} (h : ∀ s t, T.Sessions s t → T.Sessions (f s) (g t)) :
    T.Holds (fun _ _ => True) scope (modify f) (modify g) := fun s t hst => .ok trivial (h s t hst)

lemma holds_ask {f g : Host → Option Value × Host}
    (h : ∀ host host', T.Hosts host host' → Option.Rel T.Values (f host).1 (g host').1 ∧ T.Hosts (f host).2 (g host').2) :
    T.Holds T.Values scope (ask f) (ask g) := by
  intro s t hst
  obtain ⟨hanswer, hhosts⟩ := h _ _ hst.hosts
  rw [exec_ask, exec_ask]
  generalize f s.host = e at hanswer hhosts ⊢
  generalize g t.host = e' at hanswer hhosts ⊢
  obtain ⟨o, host⟩ := e
  obtain ⟨o', host'⟩ := e'
  have hsessions : T.Sessions { s with host } { t with host := host' } :=
    ⟨hhosts, hst.pass, hst.only, hst.definitions, hst.answers, hst.awaited, hst.entries⟩
  cases hanswer with
  | none => exact .error hsessions
  | some hvw => exact .ok hvw hsessions

lemma holds_map {f g : α → β} (hx : T.Holds R scope x y) (hf : ∀ a b, R a b → R' (f a) (g b)) :
    T.Holds R' scope (do return f (← x)) (do return g (← y)) := holds_bind hx fun a b hab => holds_pure (hf a b hab)

lemma holds_mapM {f g : α → Eval β} {l l' : List α} (hl : List.Forall₂ P l l')
    (h : ∀ a b, P a b → T.Holds R' scope (f a) (g b)) :
    T.Holds (List.Forall₂ R') scope (l.mapM f) (l'.mapM g) := by
  induction hl with
  | nil => exact holds_pure .nil
  | cons hab _ ih =>
    rw [List.mapM_cons, List.mapM_cons]
    exact holds_bind (h _ _ hab) fun a b hab => holds_map ih fun as bs hbs => .cons hab hbs

lemma holds_await {k : CallKey} {handle handle' : Nat} (h : T.Handles handle handle') :
    T.Holds (fun _ _ => True) scope (await k handle) (await k handle') :=
  holds_modify fun _ _ hst =>
    ⟨hst.hosts, hst.pass, hst.only, hst.definitions, hst.answers, .cons ⟨rfl, h⟩ hst.awaited, hst.entries⟩

lemma holds_remember (k : CallKey) {v w : Value} (h : T.Values v w) :
    T.Holds (fun _ _ => True) scope (remember k v) (remember k w) :=
  holds_modify fun _ _ hst => ⟨hst.hosts, hst.pass, hst.only, hst.definitions,
    Table.rel_insert Function.injective_id Function.injective_id hst.answers k h, hst.awaited, hst.entries⟩

lemma holds_forIn_remember {l l' : List (CallKey × Value)}
    (hl : List.Forall₂ (fun x y => x.1 = y.1 ∧ T.Values x.2 y.2) l l') {f : CallKey × Value → PUnit → Eval (ForInStep PUnit)}
    (hf : ∀ x u, f x u = do remember x.1 x.2; return .yield u) :
    T.Holds (fun _ _ => True) scope (forIn l PUnit.unit f) (forIn l' PUnit.unit f) := by
  induction hl with
  | nil => exact holds_pure trivial
  | @cons x y _ _ hxy _ ih =>
    rw [List.forIn_cons, List.forIn_cons, hf, hf, bind_assoc, bind_assoc, ← hxy.1]
    exact holds_bind (holds_remember x.1 hxy.2) fun _ _ _ => ih

end Rules

section Calls

open Eval

lemma values_error (e : ErrorValue) : T.Values (.error e) (.error e) := .inl ⟨rfl, .flat trivial⟩

lemma holds_run {f : FunctionDef} (hf : f.Pure) (key : CallKey) {args : List Value} (hargs : ∀ v ∈ args, v.HandleFree) :
    T.Holds T.Values scope (Evaluator.run key f args) (Evaluator.run key f.calm args) := by
  unfold Evaluator.run
  refine holds_read (holds_bind (holds_ask fun h h' hh => hh.call hf hargs _ _ _) fun v w hvw => ?_)
  change T.Holds T.Values scope (if scope.waits = true then _ else _) (if scope.waits = true then _ else _)
  split
  · rcases hvw with ⟨rfl, hv⟩ | ⟨handle, handle', rfl, rfl, hk⟩
    · have hv' := hv.isPending_eq
      cases v with
      | pending => cases hv'
      | _ => exact holds_bind (holds_remember key (.inl ⟨rfl, hv⟩)) fun _ _ _ => holds_pure (.inl ⟨rfl, hv⟩)
    · exact holds_bind (holds_await hk) fun _ _ _ =>
        holds_bind (holds_remember key (.inr ⟨_, _, rfl, rfl, hk⟩)) fun _ _ _ => holds_pure (.inr ⟨_, _, rfl, rfl, hk⟩)
  · rcases hvw with ⟨rfl, hv⟩ | ⟨handle, handle', rfl, rfl, -⟩
    · rw [hv.isPending_eq]
      exact holds_pure (.inl ⟨rfl, hv⟩)
    · exact holds_pure (values_error _)

lemma eq_of_sameRule {values : Value → Value → Prop} {args args' : List (ArgumentRule × Value)}
    (h : List.Forall₂ (SameRule values) args args') (heq : args.map (·.2) = args'.map (·.2)) : args = args' := by
  induction h with
  | nil => rfl
  | @cons a b _ _ hab _ ih =>
    obtain ⟨hhead, htail⟩ := List.cons.inj heq
    rw [ih htail, Prod.ext hab.1 hhead]

lemma holds_call {snapshot : Snapshot} (hpure : snapshot.registry.Pure) {start count : Nat} {name : String}
    {arguments arguments' : FunctionDef → Eval (List (ArgumentRule × Value))}
    (h : ∀ f f' : FunctionDef, f.rules = f'.rules →
      T.Holds (List.Forall₂ (SameRule T.Values)) scope (arguments f) (arguments' f')) :
    T.Holds T.Values scope (Evaluator.call snapshot start name count arguments)
      (Evaluator.call snapshot.calm start name count arguments') := by
  unfold Evaluator.call
  refine holds_read ?_
  extract_lets key made key' made'
  -- the call when no answer is kept for it
  have hmade : T.Holds T.Values scope (made ()) (made' ()) := by
    simp only [made, made', Snapshot.calm, Registry.find?_calm]
    cases hf : snapshot.registry.find? name with
    | none => exact holds_pure (values_error _)
    | some f =>
      dsimp only [Option.map_some]
      rw [show f.calm.accepts count = f.accepts count from rfl]
      split
      · exact holds_pure (values_error _)
      · refine holds_bind (h f f.calm rfl) fun args args' hargs => ?_
        have hvalues : List.Forall₂ T.Values (args.map (·.2)) (args'.map (·.2)) := by
          rw [List.forall₂_map_left_iff, List.forall₂_map_right_iff]
          exact hargs.imp fun _ _ hab => hab.2
        rcases Value.Like.firstPending hvalues with ⟨p, q, hp, hq, hpq⟩ | ⟨hp, -, heq, hfree⟩
        · rw [hp, hq]
          exact holds_pure hpq
        · obtain rfl := eq_of_sameRule hargs heq
          rw [hp]
          cases Evaluator.firstError? args with
          | some e => exact holds_pure (values_error e)
          | none => exact holds_run (hpure name f hf) key hfree
  change T.Holds T.Values scope (if scope.waits = true then _ else _) (if scope.waits = true then _ else _)
  split
  · refine holds_get fun s t hst => ?_
    have hanswer := hst.answers key
    rw [show key' = key from rfl]
    generalize s.answers[key]? = o at hanswer ⊢
    generalize t.answers[key]? = o' at hanswer ⊢
    cases hanswer with
    | none => exact hmade
    | @some v w hvw =>
      -- a handle that is kept goes with a handle on the other side, and both are waited for
      rcases hvw with ⟨rfl, hv⟩ | ⟨handle, handle', rfl, rfl, hk⟩
      · have hv' := hv.isPending_eq
        cases v with
        | pending => cases hv'
        | _ => exact holds_pure (.inl ⟨rfl, hv⟩)
      · exact holds_bind (holds_await hk) fun _ _ _ => holds_pure (.inr ⟨_, _, rfl, rfl, hk⟩)
  · exact hmade

end Calls

/-- The likeness that consists in ending together. -/
def likeness (T : Twin) {snapshot : Snapshot} (hpure : snapshot.registry.Pure) : Likeness snapshot snapshot.calm where
  strict := False
  sound := Value.HandleFree
  handles := T.Handles
  Holds _ R scope x y := T.Holds R scope x y
  toBeside := snapshot.beside_calm
  kept := Value.kept_handleFree
  ret := holds_pure
  bind := holds_bind
  widen h _ := h
  ofRead {_ _ _ scope _ _} h := holds_read (h scope.origin scope.origin T.generation T.generation')
  ofGet h := holds_get fun s t hst => h s t hst.pass.symm hst.only
  store p hv := holds_modify fun s t hst => ⟨hst.hosts, by rw [hst.pass], hst.only.store hv, hst.definitions, hst.answers,
    hst.awaited, hst.entries⟩
  enterCell _ h := h
  enterName _ h := h
  definition {_ _ _ k} _ _ := by
    unfold Evaluator.definitionNode
    refine holds_get fun s t hst => ?_
    rw [hst.definitions]
    cases s.definitions[k]? with
    | some n => exact holds_pure ⟨rfl, False.elim⟩
    | none =>
      refine holds_bind (R := fun _ _ => True) (holds_modify fun s t hst => ⟨hst.hosts, hst.pass, hst.only, ?_, hst.answers,
        hst.awaited, hst.entries⟩) fun _ _ _ => holds_pure ⟨rfl, False.elim⟩
      rw [hst.definitions]
      rfl
  call _ h := holds_call hpure h

section Waiting

open Eval

variable {x y : Eval Value}

lemma holds_takeAnswers : T.Holds (fun _ _ => True) scope takeAnswers takeAnswers := by
  have hanswers : T.Holds (List.Forall₂ fun x y => x.1 = y.1 ∧ T.Values x.2 y.2) scope answerAwaited answerAwaited := by
    refine holds_get fun s t hst => holds_bind (R := fun _ _ => True) (holds_modify fun s t hst => ?_) fun _ _ _ => ?_
    · exact ⟨hst.hosts, hst.pass, hst.only, hst.definitions, hst.answers, .nil, hst.entries⟩
    · refine holds_mapM (List.forall₂_reverse_iff.2 hst.awaited) fun a b hab => ?_
      exact holds_map (holds_ask fun h h' hh => hh.resolve hab.2) fun v w hvw => ⟨hab.1, hvw⟩
  refine holds_bind hanswers fun l l' hl => holds_bind (holds_forIn_remember hl ?_) fun _ _ _ => holds_pure trivial
  rintro ⟨key, v⟩ u
  rfl

/-- The same value without handles. -/
def Settled (v w : Value) : Prop := v = w ∧ v.HandleFree

lemma settled_of_values {v w : Value} (h : T.Values v w) : Settled v.settled w.settled := by
  rcases h with ⟨rfl, hv⟩ | ⟨handle, handle', rfl, rfl, -⟩
  · exact ⟨rfl, hv.settled⟩
  · exact ⟨rfl, .flat trivial⟩

/-- Nothing in between: either a generation has been started on the left, or both end with the same value. -/
def Stays (T : Twin) (e e' : Except Scope Value × Session) : Prop :=
  e.2.host.generations.isCurrent T.generation = false ∨ T.Ends Settled e e'

/-- Whoever waits for answers stops waiting only where a generation has been started. -/
lemma stays_waitFor (h : T.Holds T.Values scope x y) (rounds : Nat) (hst : T.Sessions s t) :
    T.Stays (exec (waitFor x rounds) (T.left scope) s) (exec (waitFor y rounds) (T.right scope) t) := by
  -- on the rounds: each begins with nothing awaited and ends with the answers to all that it has asked for
  induction rounds generalizing s t with
  | zero => exact .inr (.ok ⟨rfl, .flat trivial⟩ hst)
  | succ rounds ih =>
    rw [waitFor_succ, waitFor_succ, exec_modify_bind, exec_modify_bind, exec_bind, exec_bind]
    have hclear : T.Sessions { s with awaited := [] } { t with awaited := [] } :=
      ⟨hst.hosts, hst.pass, hst.only, hst.definitions, hst.answers, .nil, hst.entries⟩
    have hends := h _ _ hclear
    generalize exec x (T.left scope) { s with awaited := [] } = e at hends ⊢
    generalize exec y (T.right scope) { t with awaited := [] } = e' at hends ⊢
    cases hends with
    | error hst => exact .inr (.error hst)
    | @ok v w s t hvw hst =>
      dsimp only
      rw [exec_get_bind, exec_get_bind]
      have hempty : t.awaited.isEmpty = s.awaited.isEmpty := by
        rw [Bool.eq_iff_iff, List.isEmpty_iff_length_eq_zero, List.isEmpty_iff_length_eq_zero, hst.awaited.length_eq]
      rw [hempty]
      split
      · exact .inr (.ok (settled_of_values hvw) hst)
      · rw [exec_bind, exec_bind]
        have hends : T.Ends _ (exec takeAnswers (T.left scope) s) (exec takeAnswers (T.right scope) t) :=
          holds_takeAnswers s t hst
        generalize exec takeAnswers (T.left scope) s = e at hends ⊢
        generalize exec takeAnswers (T.right scope) t = e' at hends ⊢
        cases hends with
        | error hst => exact .inr (.error hst)
        | @ok _ _ s t _ hst =>
          dsimp only
          rw [exec_get_bind, exec_get_bind, exec_read_bind, exec_read_bind]
          have hcurrent : t.host.generations.isCurrent (T.right scope).generation = true := by
            rw [Generations.isCurrent, hst.hosts.latest]
            exact beq_self_eq_true _
          rw [if_pos hcurrent]
          split
          · exact ih hst
          · rename_i hstale
            exact .inl (Bool.eq_false_iff.2 hstale)

end Waiting

section Interpreters

open Eval

variable {i j : Interpreter} {x y : Eval Value}

/-- Interpreters with such sessions, at the same point of a formula. -/
structure Interpreters (T : Twin) (i j : Interpreter) : Prop where
  scope : ∃ scope : Scope, i.scope = T.left scope ∧ j.scope = T.right scope
  sessions : T.Sessions i.session j.session
  interrupted : j.interrupted = i.interrupted

/-- What two interpreters give: either a generation has been started on the left, or both give the same. -/
def Gives (T : Twin) (a b : Option Value × Interpreter) : Prop :=
  a.2.session.host.generations.isCurrent T.generation = false ∨
    b.1 = a.1 ∧ (∀ v, a.1 = some v → v.HandleFree) ∧ T.Interpreters a.2 b.2

lemma Interpreters.run (h : T.Interpreters i j) (hact : ∀ scope, T.Holds T.Values scope x y) (waits : Bool) (origin : Origin) :
    T.Gives (i.run waits origin x) (j.run waits origin y) := by
  obtain ⟨⟨scope, hi, hj⟩, hst, hinterrupted⟩ := h
  unfold Interpreter.run
  extract_lets before here whole before' here' whole'
  have hhere : here = T.left { scope with waits, origin } := by
    simp only [here, before, hi]
    rfl
  have hhere' : here' = T.right { scope with waits, origin } := by
    simp only [here', before', hj]
    rfl
  have hwhole : T.Stays (exec whole here i.session) (exec whole' here' j.session) := by
    rw [hhere, hhere']
    -- the interpreter sees no more of an attempt than its end, so the answers kept on the way are dropped on both sides
    cases waits with
    | true =>
      have hstays := stays_waitFor (hact { scope with waits := true, origin }) maxRounds hst
      simp only [whole, whole', if_true]
      rw [exec_bind, exec_bind]
      generalize exec (waitFor x maxRounds) _ _ = e at hstays ⊢
      generalize exec (waitFor y maxRounds) _ _ = e' at hstays ⊢
      rcases hstays with hstale | hends
      · left
        rcases e with ⟨there | v, s⟩ <;> exact hstale
      · right
        cases hends with
        | ok hvw hst =>
          exact .ok hvw ⟨hst.hosts, hst.pass, hst.only, hst.definitions, fun k => by simp, hst.awaited, hst.entries⟩
        | error hst => exact .error hst
    | false => exact .inr (holds_map (hact _) (fun _ _ => settled_of_values) _ _ hst)
  change T.Gives (match exec whole here i.session with | (.ok v, session) => _ | (.error scope, session) => _)
    (match exec whole' here' j.session with | (.ok v, session) => _ | (.error scope, session) => _)
  generalize exec whole here i.session = e at hwhole ⊢
  generalize exec whole' here' j.session = e' at hwhole ⊢
  rcases hwhole with hstale | hends
  · left
    rcases e with ⟨there | v, s⟩ <;> exact hstale
  · right
    cases hends with
    | @ok v w _ _ hvw hst =>
      obtain ⟨rfl, hfree⟩ := hvw
      exact ⟨rfl, by rintro _ ⟨⟩; exact hfree, ⟨scope, hi, hj⟩, hst, rfl⟩
    | error hst => exact ⟨rfl, nofun, ⟨_, rfl, rfl⟩, hst, by rw [hi, hj]; rfl⟩

variable {snapshot : Snapshot}

lemma Interpreters.evaluate (h : T.Interpreters i j) (hpure : snapshot.registry.Pure) (n : Node) (waits : Bool) :
    T.Gives (i.evaluate snapshot n waits) (j.evaluate snapshot.calm n waits) := by
  have hunder := (T.likeness hpure).under_evaluator False.elim
  have hst := h.sessions
  have hentered : T.Interpreters { i with session := { i.session with entries := i.session.entries + 1 } }
      { j with session := { j.session with entries := j.session.entries + 1 } } :=
    ⟨h.scope, ⟨hst.hosts, hst.pass, hst.only, hst.definitions, hst.answers, hst.awaited, by rw [hst.entries]⟩, h.interrupted⟩
  unfold Interpreter.evaluate
  rw [hst.entries] at hentered ⊢
  exact hentered.run (fun scope => hunder.value scope fun hs => hs.elim) waits _

lemma Gives.keepResult {a b : Option Value × Interpreter} (h : T.Gives a b) (books : Books) (index : Index) (p : Place) :
    T.Gives (Interpreter.keepResult books index p a) (Interpreter.keepResult books index p b) := by
  rcases h with hstale | ⟨heq, hfree, hij⟩
  · left
    rw [(Interpreter.host_keepResult books index p a).2]
    exact hstale
  · obtain ⟨o, i⟩ := a
    obtain ⟨o', j⟩ := b
    obtain rfl : o' = o := heq
    cases o' with
    | none => exact .inr ⟨rfl, hfree, hij⟩
    | some v =>
      have hst := hij.sessions
      have hpass : j.session.pass = i.session.pass := hst.pass
      rw [Interpreter.keepResult, Interpreter.keepResult, hpass]
      split
      · exact .inr ⟨rfl, hfree, hij⟩
      · exact .inr ⟨rfl, hfree, hij.scope, ⟨hst.hosts, rfl, hst.only.store (hfree v rfl), hst.definitions, hst.answers,
          hst.awaited, hst.entries⟩, hij.interrupted⟩

lemma Interpreters.evaluateCell (h : T.Interpreters i j) (hpure : snapshot.registry.Pure) (p : Place) (waits : Bool) :
    (∃ e, i.evaluateCell snapshot p waits = .error e ∧ j.evaluateCell snapshot.calm p waits = .error e) ∨
      ∃ a b, i.evaluateCell snapshot p waits = .ok a ∧ j.evaluateCell snapshot.calm p waits = .ok b ∧ T.Gives a b := by
  have hattempt : ∀ scope, T.Holds T.Values scope (Interpreter.cellAttempt snapshot p)
      (Interpreter.cellAttempt snapshot.calm p) := fun _ =>
    Likeness.holds_cellAttempt ((T.likeness hpure).under_evaluator False.elim) p
  have hgives := h.run hattempt waits {}
  rw [Interpreter.evaluateCell_eq, Interpreter.evaluateCell_eq, show snapshot.calm.index = snapshot.index from rfl]
  cases snapshot.index with
  | none => exact .inl ⟨_, rfl, rfl⟩
  | some index =>
    dsimp only
    split
    · exact .inl ⟨_, rfl, rfl⟩
    · exact .inr ⟨_, _, rfl, rfl, hgives.keepResult _ _ p⟩

lemma Interpreters.modifyPass (h : T.Interpreters i j) {f : Pass → Pass}
    (hf : ∀ s : Pass, s.Only Value.HandleFree → (f s).Only Value.HandleFree) :
    T.Interpreters (i.modifyPass f) (j.modifyPass f) := by
  have hst := h.sessions
  exact ⟨h.scope, ⟨hst.hosts, congrArg f hst.pass, hf _ hst.only, hst.definitions, hst.answers, hst.awaited, hst.entries⟩,
    h.interrupted⟩

lemma Interpreters.moveTo (h : T.Interpreters i j) (c : Cursor) : T.Interpreters (i.moveTo c) (j.moveTo c) := by
  obtain ⟨⟨scope, hi, hj⟩, hst, hinterrupted⟩ := h
  refine ⟨⟨scope.moveTo c, ?_, ?_⟩, hst, hinterrupted⟩
  · rw [Interpreter.moveTo, hi]
    rfl
  · rw [Interpreter.moveTo, hj]
    rfl

lemma Interpreters.reset (h : T.Interpreters i j) : T.Interpreters i.reset j.reset := by
  obtain ⟨⟨scope, hi, hj⟩, hst, hinterrupted⟩ := h
  refine ⟨⟨{ cursor := i.interrupted.getD scope.cursor }, ?_, ?_⟩, ?_, rfl⟩
  · rw [Interpreter.reset, hi]
    rfl
  · rw [Interpreter.reset, hj, hinterrupted]
    rfl
  · exact ⟨hst.hosts, hst.pass, hst.only, hst.definitions, fun k => by simp [Interpreter.reset], .nil, hst.entries⟩

end Interpreters

end Twin

end Spreadsheet
