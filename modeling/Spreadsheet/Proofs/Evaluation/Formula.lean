import Spreadsheet.Evaluation.Interpreter
import Spreadsheet.Proofs.Evaluation.Meaning
import Spreadsheet.Proofs.Evaluation.Promise

/-! Evaluation gives what a formula means, as long as the cells it reads give what is known of them; where answers are
waited for, it may also get stuck, and where functions break off, so may it. -/

namespace Spreadsheet

open Dependency Formula

namespace Eval

variable {α β : Type} {scope : Scope} {s : Session}

/-- How an evaluation ends from a scope and a session. -/
def exec (x : Eval α) (scope : Scope) (s : Session) : Except Scope α × Session := (x.run scope).run.run s

@[simp] lemma exec_pure (a : α) : exec (pure a) scope s = (.ok a, s) := rfl

lemma exec_bind (x : Eval α) (f : α → Eval β) : exec (x >>= f) scope s =
    match exec x scope s with
    | (.ok a, s') => exec (f a) scope s'
    | (.error e, s') => (.error e, s') := by
  simp only [exec, ReaderT.run_bind, ExceptT.run_bind, StateT.run_bind]
  change (match StateT.run (ExceptT.run (ReaderT.run x scope)) s with | (a, s') => _) = _
  rcases StateT.run (ExceptT.run (ReaderT.run x scope)) s with ⟨_ | _, _⟩ <;> rfl

@[simp] lemma exec_read_bind (f : Scope → Eval β) : exec (read >>= f) scope s = exec (f scope) scope s := rfl

@[simp] lemma exec_get_bind (f : Session → Eval β) : exec (get >>= f) scope s = exec (f s) scope s := rfl

@[simp] lemma exec_modify_bind (f : Session → Session) (g : PUnit → Eval β) :
    exec (modify f >>= g) scope s = exec (g ⟨⟩) scope (f s) := rfl

lemma exec_ask (f : Host → Option Value × Host) : exec (ask f) scope s =
    match f s.host with
    | (some v, host) => (.ok v, { s with host })
    | (none, host) => (.error scope, { s with host }) := by
  rw [ask, exec_get_bind]
  rcases f s.host with ⟨_ | v, host⟩ <;> rfl

/-- The evaluation breaks off, in a scope of the same calculation, and leaves a session of a kind. -/
def BreaksOff (I : Session → Prop) (scope : Scope) (x : Eval α) (s : Session) : Prop :=
  ∃ (there : Scope) (s' : Session), exec x scope s = (.error there, s') ∧ there.generation = scope.generation ∧ I s'

lemma BreaksOff.bind {I : Session → Prop} {x : Eval α} (h : BreaksOff I scope x s) (f : α → Eval β) :
    BreaksOff I scope (x >>= f) s := by
  obtain ⟨place, s', hx, hrest⟩ := h
  exact ⟨place, s', by rw [exec_bind, hx], hrest⟩

lemma BreaksOff.mono {I J : Session → Prop} {x : Eval α} (h : BreaksOff I scope x s) (hIJ : ∀ t, I t → J t) :
    BreaksOff J scope x s := by
  obtain ⟨there, t, hx, hgeneration, hI⟩ := h
  exact ⟨there, t, hx, hgeneration, hIJ t hI⟩

/-- The evaluation keeps sessions of a kind. It ends with what is expected, and nothing more is awaited than before, or
it is stuck and something is awaited, or it breaks off where it may. -/
def Attempts (stops : Prop) (I : Session → Prop) (scope : Scope) (x : Eval α) (done stuck : α → Prop) : Prop :=
  ∀ s, I s → (∃ (a : α) (s' : Session), exec x scope s = (.ok a, s') ∧ I s' ∧
    (done a ∧ s'.awaited = s.awaited ∨ scope.waits = true ∧ stuck a ∧ s'.awaited ≠ [])) ∨
    stops ∧ BreaksOff I scope x s

section Rules

variable {stops : Prop} {I : Session → Prop} {x : Eval α} {a : α} {done stuck : α → Prop} {done' stuck' : β → Prop}

lemma attempts_of_exec (h : ∀ s, I s → exec x scope s = (.ok a, s)) (ha : done a) :
    Attempts stops I scope x done stuck :=
  fun s hs => Or.inl ⟨a, s, h s hs, hs, Or.inl ⟨ha, rfl⟩⟩

lemma attempts_pure (ha : done a) : Attempts stops I scope (pure a) done stuck := attempts_of_exec (fun _ _ => rfl) ha

lemma attempts_read {f : Scope → Eval β} (h : Attempts stops I scope (f scope) done' stuck') :
    Attempts stops I scope (read >>= f) done' stuck' := h

lemma BreaksOff.of_exec {f : α → Eval β} {t : Session} (hx : exec x scope s = (.ok a, t))
    (h : BreaksOff I scope (f a) t) : BreaksOff I scope (x >>= f) s := by
  obtain ⟨place, u, hf, hrest⟩ := h
  exact ⟨place, u, by rw [exec_bind, hx]; exact hf, hrest⟩

/-- What is stuck stays so if all that comes after it says so. -/
lemma attempts_bind {f : α → Eval β} (hx : Attempts stops I scope x (· = a) stuck)
    (hf : Attempts stops I scope (f a) done' stuck') (hs : ∀ v, stuck v → Attempts stops I scope (f v) stuck' stuck') :
    Attempts stops I scope (x >>= f) done' stuck' := by
  intro s hI
  rcases hx s hI with ⟨v, t, hv, hI, hend⟩ | ⟨hstops, hbreak⟩
  · rcases hend with ⟨rfl, ha⟩ | ⟨hw, hstuck, ha⟩
    · refine (hf t hI).imp ?_ (And.imp_right (.of_exec hv))
      rintro ⟨w, u, hw, hI, hend⟩
      exact ⟨w, u, by rw [exec_bind, hv]; exact hw, hI, ha ▸ hend⟩
    · refine (hs v hstuck t hI).imp ?_ (And.imp_right (.of_exec hv))
      rintro ⟨w, u, hx, hI, hend⟩
      refine ⟨w, u, by rw [exec_bind, hv]; exact hx, hI, Or.inr (hend.elim ?_ id)⟩
      exact fun ⟨hstuck, hsame⟩ => ⟨hw, hstuck, hsame ▸ ha⟩
  · exact Or.inr ⟨hstops, hbreak.bind f⟩

lemma attempts_map {f : α → β} (hx : Attempts stops I scope x done stuck) (hd : ∀ a, done a → done' (f a))
    (hs : ∀ a, stuck a → stuck' (f a)) : Attempts stops I scope (do return f (← x)) done' stuck' := by
  intro s hI
  refine (hx s hI).imp ?_ (And.imp_right (·.bind _))
  rintro ⟨v, t, hv, hI, hend⟩
  refine ⟨f v, t, by rw [exec_bind, hv]; rfl, hI, ?_⟩
  exact hend.imp (And.imp_left (hd v)) (And.imp_right (And.imp_left (hs v)))

end Rules

lemma exec_mapM {f : α → Eval β} {g : α → β} {l : List α} (h : ∀ a ∈ l, exec (f a) scope s = (.ok (g a), s)) :
    exec (l.mapM f) scope s = (.ok (l.map g), s) := by
  induction l with
  | nil => rfl
  | cons a l ih =>
    obtain ⟨ha, hl⟩ := List.forall_mem_cons.1 h
    rw [List.mapM_cons, exec_bind, ha]
    dsimp only
    rw [exec_bind, ih hl]
    rfl

end Eval

namespace Interpreter

open Eval

variable {i : Interpreter} {origin : Origin} {act : Eval Value} {v : Value} {s : Session}

lemma run_ok (h : exec act { i.scope with waits := false, origin } i.session = (.ok v, s)) :
    i.run false origin act = (some v.settled, ⟨i.scope, s, none⟩) := by
  have hx : ((do return (← act).settled : Eval Value).run { i.scope with waits := false, origin }).run i.session =
      (.ok v.settled, s) := by
    change exec _ _ _ = _
    rw [exec_bind, h]
    rfl
  simp only [run, Bool.false_eq_true, if_false, hx]

lemma run_waiting (h : exec (waitFor act maxRounds) { i.scope with waits := true, origin } i.session = (.ok v, s)) :
    i.run true origin act = (some v, ⟨i.scope, { s with answers := ∅ }, none⟩) := by
  have hx : ((do
      let v ← waitFor act maxRounds
      forgetAnswers
      return v : Eval Value).run { i.scope with waits := true, origin }).run i.session =
      (.ok v, { s with answers := ∅ }) := by
    change exec _ _ _ = _
    rw [exec_bind, h]
    rfl
  simp only [run, if_true, hx]

variable {there : Scope}

lemma run_error (h : exec act { i.scope with waits := false, origin } i.session = (.error there, s)) :
    i.run false origin act = (none, ⟨there, s, some i.scope.cursor⟩) := by
  have hx : ((do return (← act).settled : Eval Value).run { i.scope with waits := false, origin }).run i.session =
      (.error there, s) := by
    change exec _ _ _ = _
    rw [exec_bind, h]
  simp only [run, Bool.false_eq_true, if_false, hx]

lemma run_waiting_error
    (h : exec (waitFor act maxRounds) { i.scope with waits := true, origin } i.session = (.error there, s)) :
    i.run true origin act = (none, ⟨there, s, some i.scope.cursor⟩) := by
  have hx : ((do
      let v ← waitFor act maxRounds
      forgetAnswers
      return v : Eval Value).run { i.scope with waits := true, origin }).run i.session = (.error there, s) := by
    change exec _ _ _ = _
    rw [exec_bind, h]
  simp only [run, if_true, hx]

end Interpreter

lemma Value.pending_of_firstPending? {vs : List Value} (h : ∃ v ∈ vs, v.isPending = true) :
    ∃ v, firstPending? vs = some v ∧ v.isPending = true := by
  obtain ⟨v, hv, hp⟩ := h
  obtain ⟨w, hw⟩ := Option.isSome_iff_exists.1 (List.find?_isSome.2 ⟨v, hv, hp⟩)
  exact ⟨w, hw, List.find?_some hw⟩

namespace Evaluator

open Eval Reading Formula.Node

variable {snapshot : Snapshot} {below : Evaluator} {scope : Scope} {pass : Pass}

/-- What is known of the cells of some regions is what reading them gives. -/
structure Reads (snapshot : Snapshot) (below : Evaluator) (scope : Scope) (pass : Pass) (refs : List Region)
    (ρ : Reading) : Prop where
  cell : ∀ s ∈ refs, ∀ q, s.contains q = true → ∀ t : Session, t.pass = pass →
    exec (readCell snapshot below q) scope t = (.ok (.ofScalar (ρ.cell q)), t)
  hasSheet : ∀ book sheet, (snapshot.books.sheet? book sheet).isSome = ρ.hasSheet book sheet
  bounded : ∀ s ∈ refs, s.range.Bounded

variable {ρ : Reading} {refs : List Region} {v : Value} {t : Session}

lemma exec_readRegion (h : Reads snapshot below scope pass refs ρ) {r s : Region} (hs : s ∈ refs)
    (hr : r.Inside s) (ht : t.pass = pass) : exec (readRegion snapshot below r) scope t = (.ok (ρ.region r), t) := by
  have hcell : ∀ q, r.contains q = true → exec (readCell snapshot below q) scope t = (.ok (.ofScalar (ρ.cell q)), t) :=
    fun q hq => h.cell s hs q (hr.contains hq) t ht
  have hsheet := h.hasSheet r.book r.sheet
  unfold readRegion Reading.region
  cases hfind : snapshot.books.sheet? r.book r.sheet with
  | none =>
    rw [← hsheet, hfind]
    rfl
  | some sheet =>
    rw [← hsheet, hfind]
    simp only [(hr.2.2.bounded (h.bounded s hs)).clamp, Option.isSome_some, Bool.not_true, Bool.false_eq_true,
      if_false]
    split
    · exact hcell _ (contains_start hr.2.2.1)
    · rw [exec_bind, exec_mapM fun q hq => hcell q (contains_of_mem_places hq)]
      dsimp only
      rw [Value.firstPending?_eq_none]
      · rfl
      · intro v hv
        obtain ⟨q, _, rfl⟩ := List.mem_map.1 hv
        exact (Value.isItem_ofScalar _).isFlat.isPending_eq

lemma exec_materialize (h : Reads snapshot below scope pass refs ρ) (hv : v.Within refs) (ht : t.pass = pass) :
    exec (materializeWith snapshot below v) scope t = (.ok (ρ.materialize v), t) := by
  rcases hv with hv | ⟨r, rfl, s, hs, hin⟩
  · cases v with
    | reference => exact hv.elim
    | _ => rfl
  · exact exec_readRegion h hs hin ht

lemma exec_prepare (h : Reads snapshot below scope pass refs ρ) (rule : ArgumentRule) (hv : v.Within refs)
    (ht : t.pass = pass) : exec (prepare snapshot below rule v) scope t = (.ok (ρ.prepare rule v), t) := by
  have hm := exec_materialize h hv ht
  unfold Evaluator.prepare
  rw [if_neg (by simp [hv.isPending_eq])]
  cases rule with
  | any | raw => exact hm
  | scalar =>
    rw [exec_bind, hm]
    rfl
  | number =>
    have hflat : (ρ.materialize v).IsFlat := materialize_flat hv
    have hitem := isItem_unpack hflat
    rw [exec_bind, hm]
    simp only [hitem.isFlat.isPending_eq]
    rfl
  | reference | referenceOrArray => rfl

variable {root : Node} {r : Registry} {stops : Prop} {I : Session → Prop}

lemma attempts_materialize {x : Eval Value} (hx : Attempts stops I scope x (· = v) (·.isPending = true))
    (h : Reads snapshot below scope pass refs ρ) (hI : ∀ s, I s → s.pass = pass) (hv : v.Within refs) :
    Attempts stops I scope (do materializeWith snapshot below (← x)) (· = ρ.materialize v) (·.isPending = true) := by
  refine attempts_bind hx (attempts_of_exec (fun s hs => exec_materialize h hv (hI s hs)) rfl) fun w hw => ?_
  cases w with
  | pending handle => exact attempts_pure rfl
  | _ => cases hw

lemma attempts_materialize_bind {β : Type} {x : Eval Value} {f : Value → Eval β} {done stuck : β → Prop}
    (hx : Attempts stops I scope x (· = v) (·.isPending = true)) (h : Reads snapshot below scope pass refs ρ)
    (hI : ∀ s, I s → s.pass = pass) (hv : v.Within refs) (hf : Attempts stops I scope (f (ρ.materialize v)) done stuck)
    (hs : ∀ w : Value, w.isPending = true → Attempts stops I scope (f w) stuck stuck) :
    Attempts stops I scope (do f (← materializeWith snapshot below (← x))) done stuck := by
  have hassoc : (do f (← materializeWith snapshot below (← x)) : Eval β) =
      (do materializeWith snapshot below (← x)) >>= f := (bind_assoc _ _ _).symm
  rw [hassoc]
  exact attempts_bind (attempts_materialize hx h hI hv) hf hs

/-- The parts of a formula are given what they mean, as long as calls are. -/
structure Meets (stops : Prop) (snapshot : Snapshot) (below : Evaluator) (scope : Scope) (pass : Pass)
    (I : Session → Prop) (r : Registry) (root : Node) (ρ : Reading) : Prop where
  plain : root.Plain r
  reads : Reads snapshot below scope pass (referencesOf scope.cursor.place.book scope.cursor.place.sheet root) ρ
  pass : ∀ s, I s → s.pass = pass
  call : ∀ span name args, (Node.call span name args).nodes ⊆ root.nodes →
    (∀ f, Attempts stops I scope (evaluateArguments snapshot below f 0 args)
      (· = ρ.meaningArguments r scope.cursor.place f 0 args) fun l => ∃ x ∈ l, x.2.isPending = true) →
    Attempts stops I scope (call snapshot span.start name args.length fun f => evaluateArguments snapshot below f 0 args)
      (· = ρ.meaning r scope.cursor.place (.call span name args)) (·.isPending = true)

mutual

theorem attempts_evaluate (h : Meets stops snapshot below scope pass I r root ρ) : ∀ n : Node, n.nodes ⊆ root.nodes →
    Attempts stops I scope (evaluateWith snapshot below n) (· = ρ.meaning r scope.cursor.place n) (·.isPending = true)
  | .literal _ _, _ | .missing _, _ | .invalid _ _, _ => by
    rw [evaluateWith, meaning]
    exact attempts_pure rfl
  | .reference _ _ _ _, _ => by
    rw [evaluateWith, meaning]
    exact attempts_read (attempts_pure rfl)
  -- plain formulas have no names
  | .name _ _, hn => (h.plain _ (hn (List.mem_singleton_self _))).elim
  | .unary s op n, hn => by
    rw [nodes, List.cons_subset] at hn
    have hm := @meaning_within ρ r scope.cursor.place root h.plain n hn.2
    rw [evaluateWith, meaning]
    refine attempts_materialize_bind (attempts_evaluate h n hn.2) h.reads h.pass hm (attempts_pure ?_) fun v hv => ?_
    · rw [(materialize_flat hm).isPending_eq]
      rfl
    · rw [if_pos hv]
      exact attempts_pure hv
  | .binary s op a b, hn => by
    rw [nodes, List.cons_subset, List.append_subset] at hn
    have hl := attempts_evaluate h a hn.2.1
    have hr := attempts_evaluate h b hn.2.2
    have ha := @meaning_within ρ r scope.cursor.place root h.plain a hn.2.1
    have hb := @meaning_within ρ r scope.cursor.place root h.plain b hn.2.2
    have hpending : ∀ v w : Value, v.isPending = true ∨ w.isPending = true →
        ∃ u, Value.firstPending? [v, w] = some u ∧ u.isPending = true := fun v w hvw =>
      Value.pending_of_firstPending? (by simpa using hvw)
    rw [evaluateWith, meaning]
    -- a handle on either side makes the result one, for references that are joined as for values
    split
    · have hjoin : ∀ v w : Value, v.isPending = true ∨ w.isPending = true → (joinReferences op v w).isPending = true := by
        intro v w hvw
        obtain ⟨u, hu, hp⟩ := hpending v w hvw
        simp only [joinReferences, hu]
        exact hp
      refine attempts_bind hl (attempts_map hr (by rintro _ rfl; rfl) fun w hw => hjoin _ w (Or.inr hw)) fun v hv => ?_
      exact attempts_map hr (fun w _ => hjoin v w (Or.inl hv)) fun w _ => hjoin v w (Or.inl hv)
    · have hget : ∀ v w : Value, v.isPending = true ∨ w.isPending = true →
          ((Value.firstPending? [v, w]).getD (v.applyBinary op w)).isPending = true := by
        intro v w hvw
        obtain ⟨u, hu, hp⟩ := hpending v w hvw
        rwa [hu]
      refine attempts_materialize_bind hl h.reads h.pass ha ?_ fun v hv => ?_
      · refine attempts_materialize_bind hr h.reads h.pass hb (attempts_pure ?_) fun w hw => ?_
        · rw [Value.firstPending?_eq_none]
          · rfl
          · simp [(materialize_flat ha).isPending_eq, (materialize_flat hb).isPending_eq]
        · exact attempts_pure (hget _ w (Or.inr hw))
      · exact attempts_materialize_bind hr h.reads h.pass hb (attempts_pure (hget v _ (Or.inl hv))) fun w _ =>
          attempts_pure (hget v w (Or.inl hv))
  | .call s f args, hn => by
    have hargs := hn
    rw [nodes, List.cons_subset] at hargs
    rw [evaluateWith]
    exact h.call s f args hn fun g => attempts_arguments h g 0 args hargs.2
  | .array s rows, hn => by
    rw [nodes, List.cons_subset] at hn
    rw [evaluateWith, meaning]
    refine attempts_map (attempts_rows h rows hn.2) (by rintro _ rfl; rfl) fun v hv => ?_
    obtain ⟨row, hrow, u, hu, hp⟩ := hv
    obtain ⟨w, hw, hp⟩ := Value.pending_of_firstPending? ⟨u, List.mem_flatten.2 ⟨row, hrow, hu⟩, hp⟩
    rwa [makeArray, hw]
  | .union s items, hn => by
    rw [nodes, List.cons_subset] at hn
    rw [evaluateWith, meaning]
    refine attempts_map (attempts_all h items hn.2) (by rintro _ rfl; rfl) fun v hv => ?_
    obtain ⟨w, hw, hp⟩ := Value.pending_of_firstPending? hv
    rwa [unite, hw]

theorem attempts_arguments (h : Meets stops snapshot below scope pass I r root ρ) (f : FunctionDef) :
    ∀ (i : Nat) (ns : List Node), nodesOfAll ns ⊆ root.nodes →
      Attempts stops I scope (evaluateArguments snapshot below f i ns)
        (· = ρ.meaningArguments r scope.cursor.place f i ns) fun l => ∃ x ∈ l, x.2.isPending = true
  | _, [], _ => by
    rw [evaluateArguments, meaningArguments]
    exact attempts_pure rfl
  | i, n :: ns, hn => by
    rw [nodesOfAll, List.append_subset] at hn
    have hm := @meaning_within ρ r scope.cursor.place root h.plain n hn.1
    have hrest := attempts_arguments h f (i + 1) ns hn.2
    have hstuck : ∀ v : Value, v.isPending = true →
        Attempts stops I scope (do return (f.rules.rule i, v) :: (← evaluateArguments snapshot below f (i + 1) ns))
          (fun l => ∃ x ∈ l, x.2.isPending = true) fun l => ∃ x ∈ l, x.2.isPending = true := fun v hv =>
      attempts_map hrest (fun _ _ => ⟨_, List.mem_cons_self, hv⟩) fun _ _ => ⟨_, List.mem_cons_self, hv⟩
    rw [evaluateArguments, meaningArguments]
    refine attempts_bind (attempts_evaluate h n hn.1) ?_ fun v hv => ?_
    · refine attempts_bind (attempts_of_exec (fun s hs => exec_prepare h.reads _ hm (h.pass s hs)) rfl) ?_ hstuck
      refine attempts_map hrest (by rintro _ rfl; rfl) ?_
      rintro l ⟨x, hx, hp⟩
      exact ⟨x, List.mem_cons_of_mem _ hx, hp⟩
    · unfold Evaluator.prepare
      rw [if_pos hv]
      exact hstuck v hv

theorem attempts_all (h : Meets stops snapshot below scope pass I r root ρ) : ∀ ns : List Node, nodesOfAll ns ⊆ root.nodes →
    Attempts stops I scope (evaluateAll snapshot below ns) (· = ρ.meaningAll r scope.cursor.place ns)
      fun l => ∃ v ∈ l, v.isPending = true
  | [], _ => by
    rw [evaluateAll, meaningAll]
    exact attempts_pure rfl
  | n :: ns, hn => by
    rw [nodesOfAll, List.append_subset] at hn
    have hm := @meaning_within ρ r scope.cursor.place root h.plain n hn.1
    have hrest := attempts_all h ns hn.2
    rw [evaluateAll, meaningAll]
    refine attempts_materialize_bind (attempts_evaluate h n hn.1) h.reads h.pass hm ?_ fun v hv => ?_
    · refine attempts_map hrest (by rintro _ rfl; rfl) ?_
      rintro l ⟨u, hu, hp⟩
      exact ⟨u, List.mem_cons_of_mem _ hu, hp⟩
    · exact attempts_map hrest (fun _ _ => ⟨v, List.mem_cons_self, hv⟩) fun _ _ => ⟨v, List.mem_cons_self, hv⟩

theorem attempts_rows (h : Meets stops snapshot below scope pass I r root ρ) :
    ∀ rows : List (List Node), nodesOfRows rows ⊆ root.nodes →
      Attempts stops I scope (evaluateRows snapshot below rows) (· = ρ.meaningRows r scope.cursor.place rows)
        fun l => ∃ row ∈ l, ∃ v ∈ row, v.isPending = true
  | [], _ => by
    rw [evaluateRows, meaningRows]
    exact attempts_pure rfl
  | ns :: rows, hn => by
    rw [nodesOfRows, List.append_subset] at hn
    have hrest := attempts_rows h rows hn.2
    rw [evaluateRows, meaningRows]
    refine attempts_bind (attempts_all h ns hn.1) ?_ fun row hrow => ?_
    · refine attempts_map hrest (by rintro _ rfl; rfl) ?_
      rintro l ⟨row, hmem, hp⟩
      exact ⟨row, List.mem_cons_of_mem _ hmem, hp⟩
    · obtain ⟨v, hv, hp⟩ := hrow
      have hmem : ∃ u ∈ row.map Value.topLeft, u.isPending = true := by
        cases v with
        | pending handle => exact ⟨_, List.mem_map_of_mem hv, rfl⟩
        | _ => cases hp
      exact attempts_map hrest (fun _ _ => ⟨_, List.mem_cons_self, hmem⟩) fun _ _ => ⟨_, List.mem_cons_self, hmem⟩

end

lemma attempts_value (h : Meets stops snapshot below scope pass I r root ρ) :
    Attempts stops I scope (do materializeWith snapshot below (← evaluateWith snapshot below root))
      (· = ρ.value r scope.cursor.place root) (·.isPending = true) :=
  attempts_materialize (attempts_evaluate h root (List.Subset.refl _)) h.reads h.pass
    (meaning_within h.plain root (List.Subset.refl _))

/-- The call of a function. It was made before, or its function is run. -/
lemma attempts_call {bound : Nat} (hr : snapshot.registry.AmountsTo r stops bound) {span : Span} {name : String}
    {args : List Node} (hroot : root.Plain r) (hn : (Node.call span name args).nodes ⊆ root.nodes)
    (hargs : ∀ f, Attempts stops I scope (evaluateArguments snapshot below f 0 args)
      (· = ρ.meaningArguments r scope.cursor.place f 0 args) fun l => ∃ x ∈ l, x.2.isPending = true)
    (hhit : ∀ s, I s → scope.waits = true → ∀ v, s.answers[scope.callKey span.start]? = some v →
      v = ρ.meaning r scope.cursor.place (.call span name args) ∧ v.isPending = false ∨
        ∃ handle, v = .pending handle ∧ I { s with awaited := (scope.callKey span.start, handle) :: s.awaited })
    (hrun : ∀ s, I s → (scope.waits = true → s.answers[scope.callKey span.start]? = none) →
      ∀ f g, f.AmountsTo g stops bound → g.Steady → ∀ values : List Value,
        values = (ρ.meaningArguments r scope.cursor.place g 0 args).map (·.2) →
        ρ.meaning r scope.cursor.place (.call span name args) = g.answer values scope.cursor.place →
          Attempts stops I scope (run (scope.callKey span.start) f values) (· = g.answer values scope.cursor.place)
            (·.isPending = true)) :
    Attempts stops I scope (call snapshot span.start name args.length fun f => evaluateArguments snapshot below f 0 args)
      (· = ρ.meaning r scope.cursor.place (.call span name args)) (·.isPending = true) := by
  rw [nodes, List.cons_subset] at hn
  unfold call
  refine attempts_read ?_
  extract_lets key rest
  -- the call when no answer is kept for it: either nothing is waited for or it is made for the first time
  have hrest : ∀ s, I s → (scope.waits = true → s.answers[key]? = none) →
      Attempts stops I scope (rest ()) (· = ρ.meaning r scope.cursor.place (.call span name args))
        (·.isPending = true) := by
    intro s hs hmiss
    have hrun := hrun s hs hmiss
    rw [meaning]
    simp only [rest]
    rcases hr.find? name with ⟨hfind, hfind'⟩ | ⟨f, g, hfind, hfind', hfg⟩
    · rw [hfind, hfind']
      exact attempts_pure rfl
    · rw [hfind, hfind']
      simp only [hfg.accepts]
      split
      · exact attempts_pure rfl
      · rename_i hcount
        refine attempts_bind (hargs f) ?_ fun l hl => ?_
        · rw [firstPending?_meaningArguments hroot f hn.2, answer, meaningArguments_of_rules hfg.rules]
          cases herror : firstError? (ρ.meaningArguments r scope.cursor.place g 0 args) with
          | some e => exact attempts_pure rfl
          | none =>
            refine hrun f g hfg (hroot _ hn.1 g hfind') _ rfl ?_
            rw [meaning, hfind']
            simp only [if_neg hcount]
            rw [answer, herror]
        · obtain ⟨x, hx, hp⟩ := hl
          obtain ⟨v, hv, hp⟩ := Value.pending_of_firstPending? ⟨x.2, List.mem_map_of_mem hx, hp⟩
          rw [hv]
          exact attempts_pure hp
  intro s hs
  by_cases hw : scope.waits = true
  · rw [if_pos hw]
    cases hv : s.answers[key]? with
    | none =>
      have h := hrest s hs (fun _ => hv) s hs
      simp only [BreaksOff, exec_get_bind, hv] at h ⊢
      exact h
    | some v =>
      refine Or.inl ?_
      rw [exec_get_bind, hv]
      -- a kept handle is asked for again, so the attempt ends there; a kept value is what the call means
      rcases hhit s hs hw v hv with ⟨hmeant, hv⟩ | ⟨handle, rfl, hI⟩
      · cases v with
        | pending handle => cases hv
        | _ => exact ⟨_, s, rfl, hs, Or.inl ⟨hmeant, rfl⟩⟩
      · exact ⟨_, _, rfl, hI, Or.inr ⟨hw, rfl, List.cons_ne_nil _ _⟩⟩
  · rw [if_neg hw]
    exact hrest s hs (fun h => absurd h hw) s hs

/-! Functions that answer at once, or break off. -/

/-- Sessions that differ in nothing but what the host counts. -/
def Steadily (pass : Pass) (generations : Generations) (s : Session) : Prop :=
  s.pass = pass ∧ s.host.generations = generations

variable {generations : Generations}

lemma attempts_run {f g : FunctionDef} (hf : f.AmountsTo g stops 0) (hg : g.Steady) (hw : scope.waits = false)
    (key : CallKey) (args : List Value) (hp : (g.answer args scope.cursor.place).isPending = false) :
    Attempts stops (Steadily pass generations) scope (run key f args) (· = g.answer args scope.cursor.place)
      (·.isPending = true) := by
  intro s hs
  let host := (s.host.countRun f.name).draw.2
  let site : CallSite := ⟨scope.cursor.place, scope.cursor.rowCount, scope.cursor.colCount, s.host.moment,
    (s.host.countRun f.name).draw.1⟩
  have hgives := hf.gives hg args site
  have hperform : host.perform (f.run args site) = (some (g.answer args scope.cursor.place), host) ∨
      stops ∧ host.perform (f.run args site) = (none, host) := by
    cases hrun : f.run args site with
    | answer v =>
      rw [hrun] at hgives
      exact Or.inl (by rw [Host.perform, show v = _ from hgives])
    | fault =>
      rw [hrun] at hgives
      exact Or.inr ⟨hgives, rfl⟩
    | later work | supersede work =>
      rw [hrun] at hgives
      exact hgives.elim
  have hcall : s.host.call f args scope.cursor.place scope.cursor.rowCount scope.cursor.colCount =
      host.perform (f.run args site) := rfl
  rcases hperform with hperform | ⟨hstops, hperform⟩
  · refine Or.inl ⟨_, { s with host }, ?_, hs, Or.inl ⟨rfl, rfl⟩⟩
    rw [run, exec_read_bind, exec_bind, exec_ask, hcall, hperform]
    simp [hw, hp]
  · refine Or.inr ⟨hstops, scope, { s with host }, ?_, rfl, hs⟩
    rw [run, exec_read_bind, exec_bind, exec_ask, hcall, hperform]

lemma meets_of_not_waits (hr : snapshot.registry.AmountsTo r stops 0) (hroot : root.Plain r) (hw : scope.waits = false)
    (h : Reads snapshot below scope pass (referencesOf scope.cursor.place.book scope.cursor.place.sheet root) ρ) :
    Meets stops snapshot below scope pass (Steadily pass generations) r root ρ where
  plain := hroot
  reads := h
  pass _ hs := hs.1
  call span name args hn hargs := by
    refine attempts_call hr hroot hn hargs (fun _ _ hwaits => by simp [hw] at hwaits) fun _ _ _ f g hfg hg values hvalues _ => ?_
    rw [nodes, List.cons_subset] at hn
    have hwithin := hg.within _ values scope.cursor.place fun v hv => by
      rw [hvalues] at hv
      obtain ⟨x, hx, rfl⟩ := List.mem_map.1 hv
      exact meaningArguments_within hroot g 0 args hn.2 x hx
    exact attempts_run hfg hg hw _ _ hwithin.isPending_eq

lemma exec_value_steady (hr : snapshot.registry.AmountsTo r stops 0)
    (h : Reads snapshot below scope pass (referencesOf scope.cursor.place.book scope.cursor.place.sheet root) ρ)
    (hroot : root.Plain r) (hw : scope.waits = false) (s : Session) (hs : s.pass = pass) :
    (∃ s' : Session, exec (do materializeWith snapshot below (← evaluateWith snapshot below root)) scope s =
        (.ok (ρ.value r scope.cursor.place root), s') ∧ Steadily pass s.host.generations s') ∨
      stops ∧ BreaksOff (Steadily pass s.host.generations) scope
        (do materializeWith snapshot below (← evaluateWith snapshot below root)) s := by
  refine (attempts_value (meets_of_not_waits hr hroot hw h) s ⟨hs, rfl⟩).imp_left ?_
  rintro ⟨v, s', hx, hI, hend⟩
  rcases hend with ⟨rfl, -⟩ | ⟨hwaits, -⟩
  · exact ⟨s', hx, hI⟩
  · simp [hw] at hwaits

end Evaluator

end Spreadsheet
