import Spreadsheet.Function.Info
import Spreadsheet.Proofs.Evaluation.Descent
import Spreadsheet.Proofs.Evaluation.Invariant

/-! What defined names mean. An interpreter keeps the trees of the definitions it has met, each under a name in upper case.
As long as such a name tells the definitions of a scope apart, what is kept under it is the tree of the definition that is
looked up, and evaluations come to the same with and without what is kept. -/

namespace Spreadsheet

open Std Text Dependency Formula Eval

lemma Text.sameLetters_congr {s t u : String} (h : sameLetters s t = true) : sameLetters u s = sameLetters u t := by
  rw [sameLetters, sameLetters, (eq_of_beq h : asciiUpper s = asciiUpper t)]

namespace Workbook

variable {w : Workbook} {name name' : String} {sheet sheet' : Option String} {d d' : DefinedName}

/-- Names of one scope that agree in upper case differ at most in the case of `a`-`z`. -/
def NamesApart (w : Workbook) : Prop :=
  ∀ d ∈ w.names, ∀ d' ∈ w.names, d.scope = d'.scope → upper d.name = upper d'.name → sameLetters d.name d'.name = true

lemma find?_of_definition? (h : w.definition? name sheet = some d) :
    (w.names.filter (sameLetters ·.name name)).find? (·.scope == d.scope) = some d := by
  have hscope : ∀ scope : Option String, (w.names.filter (sameLetters ·.name name)).find? (·.scope == scope) = some d →
      (w.names.filter (sameLetters ·.name name)).find? (·.scope == d.scope) = some d := by
    intro scope hfind
    have hbeq := List.find?_some hfind
    rwa [eq_of_beq hbeq]
  rcases Option.or_eq_some_iff.1 h with hown | ⟨-, hshared⟩
  · obtain ⟨id, -, hown⟩ := Option.bind_eq_some_iff.1 hown
    exact hscope _ hown
  · exact hscope _ hshared

/-- What is looked up depends on the scope of the definition that is found and on the upper case of the name only. -/
lemma NamesApart.definition_unique (hw : w.NamesApart) (h : w.definition? name sheet = some d)
    (h' : w.definition? name' sheet' = some d') (hscope : d.scope = d'.scope) (hname : upper name = upper name') : d = d' := by
  have hfind := find?_of_definition? h
  have hfind' := find?_of_definition? h'
  obtain ⟨hd, hletters⟩ := List.mem_filter.1 (List.mem_of_find?_eq_some hfind)
  obtain ⟨hd', hletters'⟩ := List.mem_filter.1 (List.mem_of_find?_eq_some hfind')
  have hupper : upper d.name = upper d'.name := by
    rw [upper_eq_of_sameLetters hletters, hname, upper_eq_of_sameLetters hletters']
  have hsame := hw d hd d' hd' hscope hupper
  have hfilter : w.names.filter (sameLetters ·.name name) = w.names.filter (sameLetters ·.name name') := by
    refine List.filter_congr fun n _ => ?_
    rw [← sameLetters_congr hletters, sameLetters_congr hsame, sameLetters_congr hletters']
  rw [hfilter, hscope] at hfind
  exact Option.some.inj (hfind.symm.trans hfind')

end Workbook

namespace Text

lemma upper_eq_asciiUpper {s : String} (h : ∀ c ∈ s.toList, c.toNat < 128) : upper s = asciiUpper s := by
  have hchar : s.toList.flatMap upperChar = s.toList.flatMap fun c => [c.toUpper] :=
    List.flatMap_congr fun c hc => if_pos (h c hc)
  rw [upper, asciiUpper, hchar, List.map_eq_flatMap]

end Text

lemma Workbook.namesApart_of_ascii {w : Workbook} (h : ∀ d ∈ w.names, ∀ c ∈ d.name.toList, c.toNat < 128) : w.NamesApart := by
  intro d hd d' hd' _ hupper
  rw [upper_eq_asciiUpper (h d hd), upper_eq_asciiUpper (h d' hd')] at hupper
  exact beq_iff_eq.2 hupper

def Books.NamesApart (b : Books) : Prop := ∀ (id : String) (w : Workbook), b.book? id = some w → w.NamesApart

namespace Snapshot

variable {snapshot : Snapshot} {kept : ExtTreeMap NameKey Node} {p : Place} {name : String} {d : DefinedName}

/-- What is kept under the key of a definition is its tree. -/
def Remembers (snapshot : Snapshot) (kept : ExtTreeMap NameKey Node) : Prop :=
  ∀ (p : Place) (name : String) (d : DefinedName) (n : Node), snapshot.definition? p name = some d →
    kept[(⟨p.book, d.scope, upper name⟩ : NameKey)]? = some n → n = snapshot.tree p.book d

lemma remembers_empty : snapshot.Remembers ∅ := by
  intro p name d n _ hn
  rw [ExtTreeMap.getElem?_empty] at hn
  cases hn

lemma definition_unique (h : snapshot.books.NamesApart) {q : Place} {name' : String} {d' : DefinedName}
    (hd : snapshot.definition? p name = some d) (hd' : snapshot.definition? q name' = some d')
    (hk : (⟨p.book, d.scope, upper name⟩ : NameKey) = ⟨q.book, d'.scope, upper name'⟩) : d = d' := by
  obtain ⟨hbook, hscope, hname⟩ := NameKey.mk.inj hk
  obtain ⟨w, hw, hd⟩ := Option.bind_eq_some_iff.1 hd
  obtain ⟨w', hw', hd'⟩ := Option.bind_eq_some_iff.1 hd'
  rw [← hbook, hw] at hw'
  obtain rfl := Option.some.inj hw'
  exact (h _ w hw).definition_unique hd hd' hscope hname

lemma Remembers.insert (h : snapshot.Remembers kept) (hapart : snapshot.books.NamesApart)
    (hd : snapshot.definition? p name = some d) :
    snapshot.Remembers (kept.insert ⟨p.book, d.scope, upper name⟩ (snapshot.tree p.book d)) := by
  intro q name' d' n hd' hn
  rw [ExtTreeMap.getElem?_insert] at hn
  split at hn
  · rename_i hk
    have hk := Std.compare_eq_iff_eq.1 hk
    obtain rfl := definition_unique hapart hd hd' hk
    rw [← Option.some.inj hn, (NameKey.mk.inj hk).1]
  · exact h q name' d' n hd' hn

lemma invariant_remembers (hapart : snapshot.books.NamesApart) :
    Session.Invariant snapshot fun s => snapshot.Remembers s.definitions where
  call _ _ _ _ _ _ hs := hs
  resolve _ _ hs := hs
  store _ _ _ hs := hs
  definition _ _ _ _ hd hs := hs.insert hapart hd
  answers _ _ _ _ hs := hs

lemma exec_definitionNode (hapart : snapshot.books.NamesApart) {s : Session} (h : snapshot.Remembers s.definitions)
    (hd : snapshot.definition? p name = some d) (scope : Scope) : ∃ kept,
      exec (Evaluator.definitionNode snapshot ⟨p.book, d.scope, upper name⟩ d) scope s =
        (.ok (snapshot.tree p.book d), { s with definitions := kept }) ∧ snapshot.Remembers kept := by
  rw [Evaluator.definitionNode, exec_get_bind]
  cases hn : s.definitions[(⟨p.book, d.scope, upper name⟩ : NameKey)]? with
  | some n =>
    rw [h p name d n hd hn]
    exact ⟨s.definitions, rfl, h⟩
  | none => exact ⟨_, rfl, h.insert hapart hd⟩

end Snapshot

/-! Evaluations from sessions that differ in what they keep. -/

namespace Recall

variable {snapshot : Snapshot} {scope : Scope} {s t : Session}

/-- Sessions that differ at most in what they keep of the definitions. -/
structure Sessions (snapshot : Snapshot) (s t : Session) : Prop where
  host : t.host = s.host
  pass : t.pass = s.pass
  left : snapshot.Remembers s.definitions
  right : snapshot.Remembers t.definitions

/-- Both evaluations end with what goes together, or both break off. -/
inductive Ends (snapshot : Snapshot) {α : Type} (R : α → α → Prop) :
    Except Scope α × Session → Except Scope α × Session → Prop
  | ok {a b : α} {s t : Session} (hab : R a b) (hst : Sessions snapshot s t) : Ends snapshot R (.ok a, s) (.ok b, t)
  | error {here there : Scope} {s t : Session} (hst : Sessions snapshot s t) :
      Ends snapshot R (.error here, s) (.error there, t)

lemma Ends.toOption_eq {α : Type} {e e' : Except Scope α × Session} (h : Ends snapshot (· = ·) e e') :
    e.1.toOption = e'.1.toOption := by
  cases h with
  | ok hab _ => rw [hab]
  | error _ => rfl

/-- From such sessions two evaluations that do not wait end together, whichever formulas they are part of. -/
def Holds (snapshot : Snapshot) {α : Type} (R : α → α → Prop) (scope : Scope) (x y : Eval α) : Prop :=
  scope.waits = false → ∀ origin origin' s t, Sessions snapshot s t →
    Ends snapshot R (exec x { scope with origin } s) (exec y { scope with origin := origin' } t)

section Rules

variable {α β : Type} {R : α → α → Prop} {R' : β → β → Prop} {x y : Eval α}

lemma holds_pure {a b : α} (hab : R a b) : Holds snapshot R scope (pure a) (pure b) := fun _ _ _ _ _ hst => .ok hab hst

lemma holds_bind {f g : α → Eval β} (hx : Holds snapshot R scope x y)
    (hf : ∀ a b, R a b → Holds snapshot R' scope (f a) (g b)) : Holds snapshot R' scope (x >>= f) (y >>= g) := by
  intro hw origin origin' s t hst
  have hends := hx hw origin origin' s t hst
  rw [exec_bind, exec_bind]
  generalize exec x { scope with origin } s = e at hends ⊢
  generalize exec y { scope with origin := origin' } t = e' at hends ⊢
  cases hends with
  | ok hab hst => exact hf _ _ hab hw _ _ _ _ hst
  | error hst => exact .error hst

lemma holds_mono {P : α → α → Prop} (hx : Holds snapshot R scope x y) (hR : ∀ a b, R a b → P a b) :
    Holds snapshot P scope x y := by
  intro hw origin origin' s t hst
  have hends := hx hw origin origin' s t hst
  generalize exec x { scope with origin } s = e at hends ⊢
  generalize exec y { scope with origin := origin' } t = e' at hends ⊢
  cases hends with
  | ok hab hst => exact .ok (hR _ _ hab) hst
  | error hst => exact .error hst

lemma holds_of_waits (h : scope.waits = false → Holds snapshot R scope x y) : Holds snapshot R scope x y := fun hw => h hw hw

lemma holds_read {f g : Scope → Eval α}
    (h : ∀ origin origin', Holds snapshot R scope (f { scope with origin }) (g { scope with origin := origin' })) :
    Holds snapshot R scope (read >>= f) (read >>= g) := fun hw origin origin' s t hst => h origin origin' hw _ _ s t hst

lemma holds_get {f g : Session → Eval α} (h : ∀ s t, Sessions snapshot s t → Holds snapshot R scope (f s) (g t)) :
    Holds snapshot R scope (get >>= f) (get >>= g) := fun hw _ _ s t hst => h s t hst hw _ _ s t hst

lemma holds_modify {f g : Session → Session} (h : ∀ s t, Sessions snapshot s t → Sessions snapshot (f s) (g t)) :
    Holds snapshot (fun _ _ => True) scope (modify f) (modify g) := fun _ _ _ s t hst => .ok trivial (h s t hst)

lemma holds_ask (f : Host → Option Value × Host) : Holds snapshot (· = ·) scope (ask f) (ask f) := by
  intro _ origin origin' s t hst
  rw [exec_ask, exec_ask, hst.host]
  rcases f s.host with ⟨_ | v, host⟩
  · exact .error ⟨rfl, hst.pass, hst.left, hst.right⟩
  · exact .ok rfl ⟨rfl, hst.pass, hst.left, hst.right⟩

end Rules

/-- The same values. -/
abbrev Values : Value → Value → Prop := Value.Like (fun _ => True) fun _ _ => False

lemma values_refl (v : Value) : Values v v := .inl ⟨rfl, trivial⟩

lemma holds_run (key key' : CallKey) (f : FunctionDef) (args : List Value) :
    Holds snapshot Values scope (Evaluator.run key f args) (Evaluator.run key' f args) := by
  refine holds_read fun origin origin' => holds_bind (holds_ask _) fun v w hvw => holds_of_waits fun hw => ?_
  subst hvw
  rw [hw]
  exact holds_pure (values_refl _)

lemma holds_call {start count : Nat} {name : String} {arguments arguments' : FunctionDef → Eval (List (ArgumentRule × Value))}
    (h : ∀ f, Holds snapshot (List.Forall₂ (SameRule Values)) scope (arguments f) (arguments' f)) :
    Holds snapshot Values scope (Evaluator.call snapshot start name count arguments)
      (Evaluator.call snapshot start name count arguments') := by
  refine holds_read fun origin origin' => holds_of_waits fun hw => ?_
  rw [if_neg (Bool.eq_false_iff.1 hw), if_neg (Bool.eq_false_iff.1 hw)]
  cases snapshot.registry.find? name with
  | none => exact holds_pure (values_refl _)
  | some f =>
    dsimp only
    split
    · exact holds_pure (values_refl _)
    · refine holds_bind (h f) fun args args' hargs => ?_
      obtain rfl := SameRule.eq hargs
      split
      · exact holds_pure (values_refl _)
      · exact holds_pure (values_refl _)
      · exact holds_run _ _ f _

lemma holds_definitionNode (hapart : snapshot.books.NamesApart) {name : String} {d : DefinedName} {k : NameKey}
    (hd : snapshot.definition? scope.cursor.place name = some d) (hk : k = ⟨scope.cursor.place.book, d.scope, upper name⟩) :
    Holds snapshot (fun n m => n = m ∧ n = snapshot.tree scope.cursor.place.book d) scope
      (Evaluator.definitionNode snapshot k d) (Evaluator.definitionNode snapshot k d) := by
  subst hk
  intro hw origin origin' s t hst
  obtain ⟨kept, hs, hkept⟩ := Snapshot.exec_definitionNode hapart hst.left hd { scope with origin }
  obtain ⟨kept', ht, hkept'⟩ := Snapshot.exec_definitionNode hapart hst.right hd { scope with origin := origin' }
  rw [hs, ht]
  exact .ok ⟨rfl, rfl⟩ ⟨hst.host, hst.pass, hkept, hkept'⟩

/-- The likeness that consists in ending together. -/
def likeness (hapart : snapshot.books.NamesApart) : Likeness snapshot snapshot where
  strict := False
  sound _ := True
  handles _ _ := False
  Holds _ R scope x y := Holds snapshot R scope x y
  toBeside := snapshot.beside_self
  kept := Value.kept_true
  ret := holds_pure
  bind := holds_bind
  widen h _ := h
  ofRead {_ _ _ scope _ _} h := holds_read fun origin origin' => h origin origin' scope.generation scope.generation
  ofGet h := holds_get fun s t hst => h s t hst.pass.symm s.pass.only_true
  store _ _ := holds_modify fun s t hst => ⟨hst.host, by rw [hst.pass], hst.left, hst.right⟩
  enterCell _ h hw _ _ := h hw {} {}
  enterName {_ _ _ _ k _ _} _ h hw _ _ := h hw { definition := some k } { definition := some k }
  definition hd hk := holds_mono (holds_definitionNode hapart hd hk) fun _ _ h => ⟨h.1, False.elim⟩
  call _ h := holds_call fun f => h f f rfl

end Recall

/-! Evaluation where nothing is to be calculated. -/

/-- What a cell reads as in a pass in which nothing is to be calculated. -/
def Pass.shown (u : Pass) (snapshot : Snapshot) (p : Place) : Value :=
  if u.cycles.contains p then .error .cycle
  else match u.results[p]? with
    | some v => v.topLeft
    | none => u.spilled[p]?.getD (snapshot.stored p)

namespace Evaluator

variable {snapshot : Snapshot} {below : Evaluator} {scope : Scope} {u : Pass} {t : Session} {name : String} {d : DefinedName}

lemma exec_readCell_shown (h : t.pass.dirty = ∅) (p : Place) :
    exec (readCell snapshot below p) scope t = (.ok (t.pass.shown snapshot p), t) := by
  have hclean : t.pass.dirty.contains p = false := by rw [h, ExtTreeSet.contains_empty]
  have hanchor : t.pass.dirtyAnchorOver? p = none :=
    Pass.dirtyAnchorOver?_eq_none fun a _ ha _ => absurd (h ▸ ha) ExtTreeSet.not_mem_empty
  rw [readCell, exec_get_bind, Pass.shown]
  dsimp only
  split
  · rfl
  · cases t.pass.results[p]? with
    | some v => rfl
    | none =>
      dsimp only
      rw [hclean, if_neg Bool.false_ne_true, hanchor]
      rfl

lemma exec_materialize_clean (snapshot : Snapshot) (h : u.dirty = ∅) (v : Value) :
    ∃ w, ∀ below scope (t : Session), t.pass = u → exec (materializeWith snapshot below v) scope t = (.ok w, t) := by
  have hread : ∀ (below : Evaluator) (scope : Scope) (t : Session), t.pass = u → ∀ p : Place,
      exec (readCell snapshot below p) scope t = (.ok (u.shown snapshot p), t) := by
    rintro below scope t rfl p
    exact exec_readCell_shown h p
  cases v with
  | reference r =>
    cases hsheet : snapshot.books.sheet? r.book r.sheet with
    | none =>
      refine ⟨.error .ref, fun below scope t ht => ?_⟩
      rw [materializeWith, readRegion, hsheet]
      rfl
    | some sheet =>
      let range := r.range.clamp sheet.rowCount sheet.colCount
      by_cases hsingle : range.isSingle = true
      · refine ⟨u.shown snapshot ⟨r.book, r.sheet, range.start.row, range.start.col⟩, fun below scope t ht => ?_⟩
        rw [materializeWith, readRegion, hsheet]
        dsimp only
        rw [if_pos hsingle]
        exact hread below scope t ht _
      · refine ⟨(Value.firstPending? (({ r with range } : Region).places.map (u.shown snapshot))).getD
          (.array ⟨range.rowCount, range.colCount, ({ r with range } : Region).places.map (u.shown snapshot)⟩),
          fun below scope t ht => ?_⟩
        rw [materializeWith, readRegion, hsheet]
        dsimp only
        rw [if_neg hsingle, exec_bind, exec_mapM fun q _ => hread below scope t ht q]
        rfl
  | _ => exact ⟨_, fun _ _ _ _ => rfl⟩

lemma inStep_clean (snapshot : Snapshot) (h : u.dirty = ∅) (levels : Nat) (scope : Scope) (n : Node) :
    InStep (· = u) scope ((ofDepth snapshot levels).evaluate n) ((ofDepth snapshot levels).evaluate n) := by
  induction levels generalizing scope n with
  | zero => exact inStep_pure _
  | succ levels ih =>
    have hturns : Turns snapshot (ofDepth snapshot levels) (ofDepth snapshot levels) (· = u) scope := by
      rintro a s rfl ha
      rw [h] at ha
      exact absurd ha ExtTreeSet.not_mem_empty
    exact inStep_evaluate hturns (fun name => inStep_evaluateName fun _ n _ _ => ih _ n) n

lemma inStep_value_clean (snapshot : Snapshot) (h : u.dirty = ∅) (scope : Scope) (n : Node) :
    InStep (· = u) scope (snapshot.evaluator.value n) (snapshot.evaluator.value n) := by
  refine inStep_bind (inStep_clean snapshot h _ scope n) fun v s hs => ?_
  obtain ⟨w, hw⟩ := exec_materialize_clean snapshot h v
  have hexec : exec (snapshot.evaluator.materialize v) scope s = (.ok w, s) := hw _ scope s hs
  exact ⟨rfl, by rw [hexec]; exact hs, fun _ _ => trivial⟩

lemma exec_evaluateName (below : Evaluator) (hapart : snapshot.books.NamesApart) (h : snapshot.Remembers t.definitions)
    (hd : snapshot.definition? scope.cursor.place name = some d)
    (hk : (⟨scope.cursor.place.book, d.scope, upper name⟩ : NameKey) ∉ scope.names) :
    ∃ kept, snapshot.Remembers kept ∧ exec (evaluateName snapshot below name) scope t =
      exec (below.evaluate (snapshot.tree scope.cursor.place.book d))
        (scope.enterName ⟨scope.cursor.place.book, d.scope, upper name⟩) { t with definitions := kept } := by
  obtain ⟨kept, hexec, hkept⟩ := Snapshot.exec_definitionNode hapart h hd scope
  refine ⟨kept, hkept, ?_⟩
  rw [Snapshot.definition?] at hd
  rw [evaluateName, exec_read_bind]
  dsimp only
  rw [hd]
  dsimp only
  rw [if_neg (by rwa [ExtTreeSet.contains_iff_mem]), exec_bind, hexec]
  rfl

lemma exec_value_name_of_none (hd : snapshot.definition? scope.cursor.place name = none) (span : Span) :
    exec (snapshot.evaluator.value (.name span name)) scope t = (.ok (.error .name), t) := by
  rw [Snapshot.definition?] at hd
  rw [(agree_above snapshot scope).value, value, exec_bind]
  simp only [above, evaluateWith, evaluateName, exec_read_bind]
  rw [hd]
  rfl

lemma ends_value_name (hapart : snapshot.books.NamesApart) {s : Session} (hst : Recall.Sessions snapshot s t)
    (hclean : t.pass.dirty = ∅) (hw : scope.waits = false) (hd : snapshot.definition? scope.cursor.place name = some d)
    (hk : (⟨scope.cursor.place.book, d.scope, upper name⟩ : NameKey) ∉ scope.names) (span : Span) (origin : Origin) :
    Recall.Ends snapshot (· = ·) (exec (snapshot.evaluator.value (.name span name)) scope s)
      (exec (snapshot.evaluator.value (snapshot.tree scope.cursor.place.book d))
        { scope.enterName ⟨scope.cursor.place.book, d.scope, upper name⟩ with origin } t) := by
  obtain ⟨kept, hkept, hname⟩ := exec_evaluateName snapshot.evaluator hapart hst.left hd hk
  have hstart : Recall.Sessions snapshot { s with definitions := kept } t := ⟨hst.host, hst.pass, hkept, hst.right⟩
  generalize (⟨scope.cursor.place.book, d.scope, upper name⟩ : NameKey) = k at hname hk ⊢
  generalize snapshot.tree scope.cursor.place.book d = n at hname ⊢
  -- the two runs differ in the trees that are kept for definitions, and in where calls start
  have hbody : Recall.Holds snapshot Recall.Values (scope.enterName k) (snapshot.evaluator.evaluate n)
      (snapshot.evaluator.evaluate n) :=
    ((Recall.likeness hapart).under_evaluator False.elim).evaluate _ n False.elim
  have hends := hbody hw { definition := some k } origin _ _ hstart
  have hpass := (inStep_clean snapshot hclean (snapshot.depth + 1) { scope.enterName k with origin } n t rfl).2.1
  rw [(agree_above snapshot scope).value, value, value, exec_bind, exec_bind]
  simp only [above, evaluateWith]
  rw [hname]
  change Recall.Ends snapshot Recall.Values (exec (snapshot.evaluator.evaluate n) (scope.enterName k) _) _ at hends
  change (exec (snapshot.evaluator.evaluate n) { scope.enterName k with origin } t).2.pass = t.pass at hpass
  generalize exec (snapshot.evaluator.evaluate n) (scope.enterName k) _ = e at hends ⊢
  generalize exec (snapshot.evaluator.evaluate n) { scope.enterName k with origin } t = e' at hends hpass ⊢
  cases hends with
  | error hst => exact .error hst
  | @ok v w s' t' hvw hst =>
    obtain rfl := Value.Like.eq hvw
    obtain ⟨w, hw⟩ := exec_materialize_clean snapshot hclean v
    have hleft : exec (materializeWith snapshot snapshot.evaluator v) scope s' = (.ok w, s') :=
      hw _ _ _ (hst.pass.symm.trans hpass)
    have hright : exec (snapshot.evaluator.materialize v) { scope.enterName k with origin } t' = (.ok w, t') :=
      hw _ _ _ hpass
    dsimp only
    rw [hleft, hright]
    exact .ok rfl hst

end Evaluator

namespace Interpreter

variable {snapshot : Snapshot} {i j : Interpreter}

/-- What can become of an interpreter. -/
inductive Reaches (snapshot : Snapshot) (i : Interpreter) : Interpreter → Prop
  | start : Reaches snapshot i i
  | evaluate {j : Interpreter} (n : Node) (waits : Bool) :
      Reaches snapshot i j → Reaches snapshot i (j.evaluate snapshot n waits).2
  | evaluateCell {j k : Interpreter} {p : Place} {waits : Bool} {o : Option Value} :
      Reaches snapshot i j → j.evaluateCell snapshot p waits = .ok (o, k) → Reaches snapshot i k
  | recordResult {j : Interpreter} (p : Place) (v : Value) : Reaches snapshot i j → Reaches snapshot i (j.recordResult snapshot p v)
  | modifyPass {j : Interpreter} (f : Pass → Pass) : Reaches snapshot i j → Reaches snapshot i (j.modifyPass f)
  | moveTo {j : Interpreter} (c : Cursor) : Reaches snapshot i j → Reaches snapshot i (j.moveTo c)
  | reset {j : Interpreter} : Reaches snapshot i j → Reaches snapshot i j.reset

lemma Reaches.remembers (hapart : snapshot.books.NamesApart) (hi : snapshot.Remembers i.session.definitions)
    (h : Reaches snapshot i j) : snapshot.Remembers j.session.definitions := by
  have hinvariant := Snapshot.invariant_remembers hapart
  induction h with
  | start => exact hi
  | evaluate n waits _ ih => exact invariant_evaluate hinvariant n ih
  | evaluateCell _ hrun ih => exact invariant_evaluateCell hinvariant hrun ih
  | recordResult _ _ _ ih | modifyPass _ _ ih | moveTo _ _ ih | reset _ ih => exact ih

/-- Evaluates formulas one after another, each in its cell. -/
def evaluateEach (i : Interpreter) (snapshot : Snapshot) (l : List (Cursor × Node)) : Interpreter :=
  l.foldl (fun i x => ((i.moveTo x.1).evaluate snapshot x.2 false).2) i

/-- A new interpreter in the same cell and the same pass, for which one more definition counts as being evaluated. -/
def afresh (i : Interpreter) (k : NameKey) : Interpreter where
  scope := { i.scope with names := i.scope.names.insert k, origin := {}, waits := false }
  session := { host := i.session.host, pass := i.session.pass }

lemma run_false (i : Interpreter) (origin : Origin) (act : Eval Value) :
    (i.run false origin act).1 = (exec act { i.scope with waits := false, origin } i.session).1.toOption.map Value.settled ∧
      (i.run false origin act).2.session = (exec act { i.scope with waits := false, origin } i.session).2 := by
  rcases hx : exec act { i.scope with waits := false, origin } i.session with ⟨there | v, t⟩
  · rw [run_error hx]
    exact ⟨rfl, rfl⟩
  · rw [run_ok hx]
    exact ⟨rfl, rfl⟩

lemma pass_evaluate (hclean : i.session.pass.dirty = ∅) (n : Node) :
    (i.evaluate snapshot n false).2.session.pass = i.session.pass := by
  have hsame := Evaluator.inStep_value_clean snapshot hclean
    { i.scope with waits := false, origin := { entry := i.session.entries + 1 } } n
    { i.session with entries := i.session.entries + 1 } rfl
  rw [Interpreter.evaluate, (run_false _ _ _).2]
  exact hsame.2.1

lemma evaluateEach_spec (h : Reaches snapshot i j) (hclean : j.session.pass.dirty = ∅) (l : List (Cursor × Node)) :
    Reaches snapshot i (j.evaluateEach snapshot l) ∧ (j.evaluateEach snapshot l).session.pass.dirty = ∅ := by
  induction l generalizing j with
  | nil => exact ⟨h, hclean⟩
  | cons x l ih =>
    refine ih ((h.moveTo x.1).evaluate x.2 false) ?_
    rw [pass_evaluate (i := j.moveTo x.1) hclean]
    exact hclean

lemma evaluate_name (hapart : snapshot.books.NamesApart) (hkept : snapshot.Remembers i.session.definitions)
    (hclean : i.session.pass.dirty = ∅) (hnames : i.scope.names = ∅) (span : Span) (name : String) :
    (i.evaluate snapshot (.name span name) false).1 =
      match snapshot.definition? i.scope.cursor.place name with
      | none => some (.error .name)
      | some d =>
        let book := i.scope.cursor.place.book
        ((i.afresh ⟨book, d.scope, upper name⟩).evaluate snapshot (snapshot.tree book d) false).1 := by
  let scope : Scope := { i.scope with waits := false, origin := { entry := i.session.entries + 1 } }
  let session : Session := { i.session with entries := i.session.entries + 1 }
  rw [Interpreter.evaluate, (run_false _ _ _).1]
  change Option.map Value.settled (exec (snapshot.evaluator.value (.name span name)) scope session).1.toOption = _
  cases hd : snapshot.definition? i.scope.cursor.place name with
  | none =>
    have hd : snapshot.definition? scope.cursor.place name = none := hd
    rw [Evaluator.exec_value_name_of_none hd]
    rfl
  | some d =>
    have hd : snapshot.definition? scope.cursor.place name = some d := hd
    have hnone : (⟨i.scope.cursor.place.book, d.scope, upper name⟩ : NameKey) ∉ scope.names := by
      rw [show scope.names = ∅ from hnames]
      exact ExtTreeSet.not_mem_empty
    have hsessions : Recall.Sessions snapshot session { host := i.session.host, pass := i.session.pass, entries := 1 } :=
      ⟨rfl, rfl, hkept, Snapshot.remembers_empty⟩
    have hends := Evaluator.ends_value_name hapart hsessions hclean rfl hd hnone span { entry := 1 }
    dsimp only
    rw [Interpreter.evaluate, (run_false _ _ _).1]
    exact congrArg (Option.map Value.settled) hends.toOption_eq

/-- A defined name means its definition, whatever has been evaluated before: it evaluates to what its definition evaluates to in
a new interpreter for which the name counts as being evaluated. -/
theorem evaluate_definedName (hapart : snapshot.books.NamesApart) (hnew : i.session.definitions = ∅)
    (hij : Reaches snapshot i j) (hclean : j.session.pass.dirty = ∅) (l : List (Cursor × Node))
    (hnames : (j.evaluateEach snapshot l).scope.names = ∅) (span : Span) (name : String) :
    ((j.evaluateEach snapshot l).evaluate snapshot (.name span name) false).1 =
      match snapshot.definition? (j.evaluateEach snapshot l).scope.cursor.place name with
      | none => some (.error .name)
      | some d =>
        let book := (j.evaluateEach snapshot l).scope.cursor.place.book
        (((j.evaluateEach snapshot l).afresh ⟨book, d.scope, upper name⟩).evaluate snapshot (snapshot.tree book d) false).1 := by
  obtain ⟨hij, hclean⟩ := evaluateEach_spec hij hclean l
  exact evaluate_name hapart (hij.remembers hapart (hnew ▸ Snapshot.remembers_empty)) hclean hnames span name

/-- A name that asks whether it is an error itself. -/
def selfName : DefinedName := { name := "N", refersTo := "=ISERROR(N)" }

def selfSnapshot : Snapshot where
  registry := Registry.empty.registerAll Function.infoFunctions
  books := .ofList [{ id := "u", name := "u", names := [selfName] }]
  names := .empty

def selfInterpreter : Interpreter := { scope := { cursor := ⟨⟨"u", "s", 0, 0⟩, maxRows, maxCols⟩ } }

/-- After a formula with the name in small letters. -/
def selfInterpreterUsed : Interpreter := selfInterpreter.evaluateEach selfSnapshot
  [(selfInterpreter.scope.cursor, .call ⟨1, 11⟩ "ISERROR" [.name ⟨9, 10⟩ "n"])]

lemma namesApart_selfSnapshot : selfSnapshot.books.NamesApart := by
  intro id w hw
  have hw : ((∅ : ExtTreeMap String Workbook).insert "u" { id := "u", name := "u", names := [selfName] })[id]? = some w := hw
  rw [ExtTreeMap.getElem?_insert] at hw
  split at hw
  · obtain rfl := Option.some.inj hw
    refine Workbook.namesApart_of_ascii fun d hd c hc => ?_
    obtain rfl := List.mem_singleton.1 hd
    obtain rfl : c = 'N' := by simpa [selfName] using hc
    decide
  · cases hw

lemma tree_selfName : selfSnapshot.tree "u" selfName = .call ⟨1, 11⟩ "ISERROR" [.name ⟨9, 10⟩ "N"] := rfl

theorem evaluate_definedName_self : selfInterpreterUsed.session.definitions.size = 1 ∧
    (selfInterpreterUsed.evaluate selfSnapshot (.name ⟨1, 2⟩ "N") false).1 = some (.boolean true) := by
  have hvalue := evaluate_definedName namesApart_selfSnapshot rfl (Reaches.start (i := selfInterpreter)) rfl
    [(selfInterpreter.scope.cursor, .call ⟨1, 11⟩ "ISERROR" [.name ⟨9, 10⟩ "n"])] rfl ⟨1, 2⟩ "N"
  have hused : selfInterpreter.evaluateEach selfSnapshot
    [(selfInterpreter.scope.cursor, .call ⟨1, 11⟩ "ISERROR" [.name ⟨9, 10⟩ "n"])] = selfInterpreterUsed := rfl
  have hplace : selfInterpreterUsed.scope.cursor.place = ⟨"u", "s", 0, 0⟩ := rfl
  have hd : selfSnapshot.definition? ⟨"u", "s", 0, 0⟩ "N" = some selfName := by decide
  rw [hused, hplace, hd] at hvalue
  refine ⟨rfl, hvalue.trans ?_⟩
  dsimp only
  rw [tree_selfName]
  rfl

/-- To a new interpreter that is given the definition as a formula the name inside is one that can be evaluated. -/
theorem evaluate_selfName_ne : selfSnapshot.books.NamesApart ∧ selfInterpreter.session.pass.dirty = ∅ ∧
    selfInterpreter.scope.names = ∅ ∧ selfSnapshot.definition? selfInterpreter.scope.cursor.place "N" = some selfName ∧
    (selfInterpreter.evaluate selfSnapshot (.name ⟨1, 2⟩ "N") false).1 = some (.boolean true) ∧
    (selfInterpreter.evaluate selfSnapshot (selfSnapshot.tree "u" selfName) false).1 = some (.boolean false) := by
  refine ⟨namesApart_selfSnapshot, rfl, rfl, by decide, rfl, ?_⟩
  rw [tree_selfName]
  rfl

end Interpreter

end Spreadsheet
