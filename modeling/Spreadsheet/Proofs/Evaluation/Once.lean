import Spreadsheet.Proofs.Evaluation.Likeness
import Spreadsheet.Proofs.Evaluation.Waiting

/-! Where answers are waited for, no call runs its function twice: a call that has run is answered from then on, and while its
arguments are evaluated its formula is under evaluation, so that nothing leads back to it. When the waiting ends, every
handle that the last attempt has met is settled. -/

namespace Spreadsheet

open Std Dependency Formula

namespace Host

variable {h h' : Host} {work : Task} {handle : Nat} {v : Value}

/-- There is work for the handle, or its answer. -/
def Known (h : Host) (handle : Nat) : Prop := handle ∈ h.waiting ∨ handle ∈ h.settled

lemma drawn_perform (h : Host) (work : Task) : (h.perform work).2.drawn = h.drawn := by
  induction work generalizing h with
  | supersede next ih => exact ih h.issueGeneration
  | _ => rfl

lemma settled_perform (h : Host) (work : Task) : (h.perform work).2.settled = h.settled := by
  induction work generalizing h with
  | supersede next ih => exact ih h.issueGeneration
  | _ => rfl

lemma mem_waiting_perform (hw : handle ∈ h.waiting) (work : Task) : handle ∈ (h.perform work).2.waiting := by
  induction work generalizing h with
  | supersede next ih => exact ih (h := h.issueGeneration) hw
  | later work => exact ExtTreeMap.mem_insert.2 (.inr hw)
  | _ => exact hw

lemma drawn_call (h : Host) (f : FunctionDef) (args : List Value) (p : Place) (rows cols : Nat) :
    (h.call f args p rows cols).2.drawn = h.drawn + 1 := drawn_perform _ _

/-- The host forgets no handle and no answer, and runs no function for a call. -/
structure Grows (h h' : Host) : Prop where
  drawn : h'.drawn = h.drawn
  known : ∀ handle, h.Known handle → h'.Known handle
  settled : ∀ handle ∈ h.settled, handle ∈ h'.settled

lemma Grows.refl (h : Host) : h.Grows h := ⟨rfl, fun _ => id, fun _ => id⟩

lemma Grows.trans {h'' : Host} (hg : h.Grows h') (hg' : h'.Grows h'') : h.Grows h'' :=
  ⟨hg'.drawn.trans hg.drawn, fun handle hk => hg'.known handle (hg.known handle hk),
    fun handle hs => hg'.settled handle (hg.settled handle hs)⟩

lemma grows_resolve (hr : h.resolve handle = (some v, h')) : h.Grows h' ∧ (h.Known handle → handle ∈ h'.settled) := by
  unfold resolve at hr
  split at hr
  · rename_i w hs
    obtain ⟨-, rfl⟩ := Prod.mk.inj hr
    exact ⟨Grows.refl h, fun _ => ExtTreeMap.mem_iff_isSome_getElem?.2 (by rw [hs]; rfl)⟩
  · rename_i hs hw
    obtain ⟨-, rfl⟩ := Prod.mk.inj hr
    refine ⟨Grows.refl h, fun hknown => hknown.elim (fun hmem => ?_) id⟩
    rw [ExtTreeMap.mem_iff_isSome_getElem?, hw] at hmem
    cases hmem
  · rename_i work hs hw
    rcases hp : h.perform work with ⟨_ | w, t⟩
    · rw [hp] at hr
      cases hr
    · rw [hp] at hr
      obtain ⟨-, rfl⟩ := Prod.mk.inj hr
      have hdrawn := drawn_perform h work
      have hsettled := settled_perform h work
      have hwaiting : ∀ x ∈ h.waiting, x ∈ (h.perform work).2.waiting := fun x hx => mem_waiting_perform hx work
      rw [hp] at hdrawn hsettled hwaiting
      have hgrown : ∀ x ∈ h.settled, x ∈ t.settled.insert handle w := by
        intro x hx
        rw [hsettled]
        exact ExtTreeMap.mem_insert.2 (.inr hx)
      exact ⟨⟨hdrawn, fun x hx => hx.imp (hwaiting x) (hgrown x), hgrown⟩, fun _ => ExtTreeMap.mem_insert_self⟩

end Host

namespace Eval

variable {α β : Type} {scope : Scope} {s t : Session}

/-- The calls for which an evaluation runs functions, one after the other. The host draws a number whenever a function is run,
so that no function was run where none was drawn. -/
inductive Runs : {α : Type} → Eval α → Scope → Session → List CallKey → Prop
  | quiet {α : Type} {x : Eval α} {scope : Scope} {s : Session} (hdrawn : (exec x scope s).2.host.drawn = s.host.drawn)
      (hanswers : ∀ k, k ∈ (exec x scope s).2.answers ↔ k ∈ s.answers) : Runs x scope s []
  | run {scope : Scope} {s : Session} (key : CallKey) (f : FunctionDef) (args : List Value) :
      Runs (Evaluator.run key f args) scope s [key]
  | bind {α β : Type} {x : Eval α} {f : α → Eval β} {scope : Scope} {s t : Session} {a : α} {log more : List CallKey}
      (hx : Runs x scope s log) (ha : exec x scope s = (.ok a, t)) (hf : Runs (f a) scope t more) :
      Runs (x >>= f) scope s (log ++ more)
  | stop {α β : Type} {x : Eval α} {f : α → Eval β} {scope there : Scope} {s t : Session} {log : List CallKey}
      (hx : Runs x scope s log) (he : exec x scope s = (.error there, t)) : Runs (x >>= f) scope s log
  | within {α : Type} {x : Eval α} {change : Scope → Scope} {scope : Scope} {s : Session} {log : List CallKey}
      (hwaits : (change scope).waits = scope.waits) (hx : Runs x (change scope) s log) :
      Runs (withReader change x) scope s log

lemma exec_run (hw : scope.waits = true) (key : CallKey) (f : FunctionDef) (args : List Value) :
    exec (Evaluator.run key f args) scope s =
      match s.host.call f args scope.cursor.place scope.cursor.rowCount scope.cursor.colCount with
      | (some v, host) => (.ok v, { s with
          host
          answers := s.answers.insert key v
          awaited := match v with | .pending handle => (key, handle) :: s.awaited | _ => s.awaited })
      | (none, host) => (.error scope, { s with host }) := by
  unfold Evaluator.run
  rw [exec_read_bind, exec_bind, exec_ask]
  rcases s.host.call f args scope.cursor.place scope.cursor.rowCount scope.cursor.colCount with ⟨_ | v, host⟩
  · rfl
  · dsimp only
    rw [if_pos hw]
    cases v <;> rfl

/-- A run that ends leaves answers for the calls that it has made, and for no others than before. -/
lemma Runs.spec {x : Eval α} {a : α} {log : List CallKey} (h : Runs x scope s log) (hw : scope.waits = true)
    (hx : exec x scope s = (.ok a, t)) :
    t.host.drawn = s.host.drawn + log.length ∧ ∀ k, k ∈ t.answers ↔ k ∈ s.answers ∨ k ∈ log := by
  induction h generalizing t with
  | quiet hdrawn hanswers =>
    rw [hx] at hdrawn hanswers
    exact ⟨hdrawn, fun k => by simpa using hanswers k⟩
  | @run scope s key f args =>
    have hdrawn := s.host.drawn_call f args scope.cursor.place scope.cursor.rowCount scope.cursor.colCount
    rw [exec_run hw] at hx
    split at hx
    · rename_i v host hcall
      obtain ⟨-, rfl⟩ := Prod.mk.inj hx
      rw [hcall] at hdrawn
      refine ⟨hdrawn, fun k => ?_⟩
      rw [ExtTreeMap.mem_insert, Std.compare_eq_iff_eq, List.mem_singleton, eq_comm, or_comm]
    · cases hx
  | @bind α β x f scope s u a log more _ ha _ ihx ihf =>
    rw [exec_bind, ha] at hx
    obtain ⟨hdrawn, hanswers⟩ := ihx hw ha
    obtain ⟨hdrawn', hanswers'⟩ := ihf hw hx
    refine ⟨by rw [hdrawn', hdrawn, List.length_append, Nat.add_assoc], fun k => ?_⟩
    rw [hanswers', hanswers, List.mem_append, or_assoc]
  | stop _ he =>
    rw [exec_bind, he] at hx
    cases hx
  | within hwaits _ ih => exact ih (hwaits.trans hw) hx

lemma Runs.read {f : Scope → Eval α} {log : List CallKey} (h : Runs (f scope) scope s log) : Runs (read >>= f) scope s log :=
  .bind (.quiet rfl fun _ => Iff.rfl) rfl h

lemma Runs.get {f : Session → Eval α} {log : List CallKey} (h : Runs (f s) scope s log) : Runs (get >>= f) scope s log :=
  .bind (.quiet rfl fun _ => Iff.rfl) rfl h

end Eval

/-- The formula that a call belongs to is under evaluation. Formulas that are given from outside always are. -/
def Scope.Open (scope : Scope) (k : CallKey) : Prop :=
  match k.definition with
  | some d => d ∈ scope.names
  | none => k.entry = 0 → k.place ∈ scope.cells

/-- The formula that is evaluated is one of those under evaluation. -/
def Scope.Anchored (scope : Scope) : Prop := ∀ start, scope.Open (scope.callKey start)

namespace Scope

variable {scope : Scope} {c : Cursor} {d : NameKey} {k : CallKey}

lemma Open.enterCell (h : scope.Open k) : (scope.enterCell c).Open k := by
  unfold Open at *
  split
  · rename_i d hd
    rwa [hd] at h
  · rename_i hd
    rw [hd] at h
    exact fun hentry => ExtTreeSet.mem_insert.2 (.inr (h hentry))

lemma Open.enterName (h : scope.Open k) : (scope.enterName d).Open k := by
  unfold Open at *
  split
  · rename_i d hd
    rw [hd] at h
    exact ExtTreeSet.mem_insert.2 (.inr h)
  · rename_i hd
    rwa [hd] at h

lemma anchored_enterCell : (scope.enterCell c).Anchored := fun _ _ => ExtTreeSet.mem_insert_self

lemma anchored_enterName : (scope.enterName d).Anchored := fun _ => ExtTreeSet.mem_insert_self

lemma not_open_enterCell (hc : c.place ∉ scope.cells) (start : Nat) : ¬ scope.Open ((scope.enterCell c).callKey start) :=
  fun h => hc (h rfl)

lemma not_open_enterName (hd : d ∉ scope.names) (start : Nat) : ¬ scope.Open ((scope.enterName d).callKey start) := hd

lemma callKey_injective : Function.Injective scope.callKey := fun _ _ h => congrArg CallKey.start h

end Scope

/-- No two calls of a definition that has been parsed start at the same place, and what is waited for has an answer until then:
its handle. -/
structure Session.Kept (s : Session) : Prop where
  definitions : ∀ (k : NameKey) (n : Node), s.definitions[k]? = some n → n.callStarts.Nodup
  awaited : ∀ x ∈ s.awaited, x.1 ∈ s.answers

namespace Eval

variable {α β : Type} {scope : Scope} {s t : Session} {Q : α → Prop} {Q' : β → Prop} {l l' : List Nat} {x : Eval α}

/-- From a session, the evaluation runs functions for calls that have no answer yet, and for none of them twice. These calls
belong to the formula that is evaluated and start at one of some places, or else to a formula that is not under evaluation. -/
structure OnceFrom (l : List Nat) (Q : α → Prop) (scope : Scope) (x : Eval α) (s : Session) : Prop where
  kept : (exec x scope s).2.Kept
  answer : ∀ a, (exec x scope s).1 = .ok a → Q a
  runs : ∃ log, Runs x scope s log ∧ log.Nodup ∧ ∀ k ∈ log, k ∉ s.answers ∧ (k ∈ l.map scope.callKey ∨ ¬ scope.Open k)

/-- So it is from every session where answers are waited for. -/
def Once (l : List Nat) (Q : α → Prop) (scope : Scope) (x : Eval α) : Prop :=
  scope.waits = true → (l ≠ [] → scope.Anchored) → ∀ s : Session, s.Kept → OnceFrom l Q scope x s

lemma onceFrom_quiet (hkept : (exec x scope s).2.Kept) (hQ : ∀ a, (exec x scope s).1 = .ok a → Q a)
    (hdrawn : (exec x scope s).2.host.drawn = s.host.drawn)
    (hanswers : ∀ k, k ∈ (exec x scope s).2.answers ↔ k ∈ s.answers) : OnceFrom l Q scope x s :=
  ⟨hkept, hQ, [], .quiet hdrawn hanswers, .nil, fun _ hk => nomatch hk⟩

lemma onceFrom_pure {a : α} (ha : Q a) (hs : s.Kept) : OnceFrom l Q scope (pure a) s :=
  onceFrom_quiet hs (by rintro b ⟨⟩; exact ha) rfl fun _ => Iff.rfl

lemma OnceFrom.widen {R : α → Prop} (h : OnceFrom l Q scope x s) (hl : l ⊆ l') (hQ : ∀ a, Q a → R a) :
    OnceFrom l' R scope x s := by
  obtain ⟨log, hruns, hnodup, hfresh⟩ := h.runs
  exact ⟨h.kept, fun a ha => hQ a (h.answer a ha), log, hruns, hnodup,
    fun k hk => (hfresh k hk).imp_right (Or.imp_left (List.map_subset _ hl ·))⟩

lemma OnceFrom.read {f : Scope → Eval α} (h : OnceFrom l Q scope (f scope) s) : OnceFrom l Q scope (read >>= f) s := by
  obtain ⟨log, hruns, hrest⟩ := h.runs
  exact ⟨h.kept, h.answer, log, hruns.read, hrest⟩

lemma OnceFrom.get {f : Session → Eval α} (h : OnceFrom l Q scope (f s) s) : OnceFrom l Q scope (get >>= f) s := by
  obtain ⟨log, hruns, hrest⟩ := h.runs
  exact ⟨h.kept, h.answer, log, hruns.get, hrest⟩

/-- What comes after an evaluation finds new answers only for the calls of its own that were made before, and for calls of
formulas that are not under evaluation. -/
lemma OnceFrom.bind {f : α → Eval β} (hw : scope.waits = true) (h : OnceFrom l Q scope x s)
    (hf : ∀ a t, exec x scope s = (.ok a, t) → Q a → t.Kept →
      (∀ k ∈ t.answers, k ∈ s.answers ∨ k ∈ l.map scope.callKey ∨ ¬ scope.Open k) → OnceFrom l' Q' scope (f a) t) :
    OnceFrom (l ++ l') Q' scope (x >>= f) s := by
  -- the calls of both parts in one log; those of the second had no answers when the first was done
  obtain ⟨hkept, hQ, log, hruns, hnodup, hfresh⟩ := h
  rcases he : exec x scope s with ⟨there | a, t⟩
  · have hexec : exec (x >>= f) scope s = (.error there, t) := by rw [exec_bind, he]
    rw [he] at hkept
    refine ⟨by rwa [hexec], by rw [hexec]; rintro b ⟨⟩, log, .stop hruns he, hnodup, fun k hk => ⟨(hfresh k hk).1, ?_⟩⟩
    rw [List.map_append, List.mem_append]
    exact (hfresh k hk).2.imp_left .inl
  · have hexec : exec (x >>= f) scope s = exec (f a) scope t := by rw [exec_bind, he]
    rw [he] at hkept hQ
    have hanswers := (hruns.spec hw he).2
    obtain ⟨hkept', hQ', more, hruns', hnodup', hfresh'⟩ :=
      hf a t he (hQ a rfl) hkept fun k hk => ((hanswers k).1 hk).imp_right fun hk => (hfresh k hk).2
    refine ⟨by rwa [hexec], by rwa [hexec], log ++ more, .bind hruns he hruns', ?_, fun k hk => ?_⟩
    · exact List.nodup_append.2 ⟨hnodup, hnodup', fun k hk k' hk' heq =>
        (hfresh' k' hk').1 ((hanswers k').2 (.inr (heq ▸ hk)))⟩
    · rw [List.map_append, List.mem_append]
      rcases List.mem_append.1 hk with hk | hk
      · exact ⟨(hfresh k hk).1, (hfresh k hk).2.imp_left .inl⟩
      · exact ⟨fun hans => (hfresh' k hk).1 ((hanswers k).2 (.inl hans)), (hfresh' k hk).2.imp_left .inr⟩

lemma once_bind {f : α → Eval β} (hx : Once l Q scope x) (hf : ∀ a, Q a → Once l' Q' scope (f a)) :
    Once (l ++ l') Q' scope (x >>= f) := fun hw hanchored s hs =>
  (hx hw (fun hl => hanchored (by simp [hl])) s hs).bind hw fun a t _ ha ht _ =>
    hf a ha hw (fun hl => hanchored (by simp [hl])) t ht

lemma once_enterCell {c : Cursor} (hc : c.place ∉ scope.cells) (h : Once l Q (scope.enterCell c) x) :
    Once [] Q scope (withReader (·.enterCell c) x) := by
  intro hw _ s hs
  obtain ⟨hkept, hQ, log, hruns, hnodup, hfresh⟩ := h hw (fun _ => Scope.anchored_enterCell) s hs
  refine ⟨hkept, hQ, log, .within rfl hruns, hnodup, fun k hk => ⟨(hfresh k hk).1, .inr ?_⟩⟩
  rcases (hfresh k hk).2 with hown | hforeign
  · obtain ⟨start, -, rfl⟩ := List.mem_map.1 hown
    exact Scope.not_open_enterCell hc start
  · exact fun hopen => hforeign hopen.enterCell

lemma once_enterName {d : NameKey} (hd : d ∉ scope.names) (h : Once l Q (scope.enterName d) x) :
    Once [] Q scope (withReader (·.enterName d) x) := by
  intro hw _ s hs
  obtain ⟨hkept, hQ, log, hruns, hnodup, hfresh⟩ := h hw (fun _ => Scope.anchored_enterName) s hs
  refine ⟨hkept, hQ, log, .within rfl hruns, hnodup, fun k hk => ⟨(hfresh k hk).1, .inr ?_⟩⟩
  rcases (hfresh k hk).2 with hown | hforeign
  · obtain ⟨start, -, rfl⟩ := List.mem_map.1 hown
    exact Scope.not_open_enterName hd start
  · exact fun hopen => hforeign hopen.enterName

lemma once_definitionNode {P : Node → Prop} (hP : ∀ n : Node, n.callStarts.Nodup → P n) (snapshot : Snapshot) (k : NameKey)
    (d : DefinedName) : Once [] P scope (Evaluator.definitionNode snapshot k d) := by
  intro _ _ s hs
  unfold Evaluator.definitionNode
  refine .get ?_
  cases hn : s.definitions[k]? with
  | some n => exact onceFrom_pure (hP n (hs.definitions k n hn)) hs
  | none =>
    have hparsed : (Node.parse { names := snapshot.names, book := some k.book } d.formula).callStarts.Nodup :=
      (Node.callStarts_parse _ _ {}).imp Nat.ne_of_lt
    dsimp only
    generalize Node.parse { names := snapshot.names, book := some k.book } d.formula = n at *
    refine onceFrom_quiet ⟨fun k' m hm => ?_, hs.awaited⟩ ?_ rfl fun _ => Iff.rfl
    · rw [exec_modify_bind, exec_pure, ExtTreeMap.getElem?_insert] at hm
      split at hm
      · obtain rfl := Option.some.inj hm
        exact hparsed
      · exact hs.definitions k' m hm
    · rintro m ⟨⟩
      exact hP n hparsed

lemma onceFrom_run {start : Nat} (f : FunctionDef) (args : List Value)
    (hw : scope.waits = true) (hs : s.Kept) (hfresh : scope.callKey start ∉ s.answers) :
    OnceFrom [start] (fun _ => True) scope (Evaluator.run (scope.callKey start) f args) s := by
  refine ⟨?_, fun _ _ => trivial, [scope.callKey start], .run _ f args, List.nodup_singleton _, ?_⟩
  · rw [exec_run hw]
    rcases s.host.call f args scope.cursor.place scope.cursor.rowCount scope.cursor.colCount with ⟨_ | v, host⟩
    · exact ⟨hs.definitions, hs.awaited⟩
    · refine ⟨hs.definitions, ?_⟩
      have hkept : ∀ x ∈ s.awaited, x.1 ∈ s.answers.insert (scope.callKey start) v :=
        fun x hx => ExtTreeMap.mem_insert.2 (.inr (hs.awaited x hx))
      cases v with
      | pending handle => exact List.forall_mem_cons.2 ⟨ExtTreeMap.mem_insert_self, hkept⟩
      | _ => exact hkept
  · exact List.forall_mem_singleton.2 ⟨hfresh, .inl (List.mem_singleton_self _)⟩

lemma once_call {snapshot : Snapshot} {start count : Nat} {name : String}
    {arguments : FunctionDef → Eval (List (ArgumentRule × Value))}
    {P : List (ArgumentRule × Value) → Prop}
    (hstart : start ∉ l) (h : ∀ f, Once l P scope (arguments f)) :
    Once (start :: l) (fun _ => True) scope (Evaluator.call snapshot start name count arguments) := by
  intro hw hanchored s hs
  have hanchored : scope.Anchored := hanchored (List.cons_ne_nil _ _)
  unfold Evaluator.call
  refine .read ?_
  extract_lets key made
  rw [if_pos hw]
  refine .get ?_
  cases hanswer : s.answers[key]? with
  | some v =>
    have hmem : key ∈ s.answers := ExtTreeMap.mem_iff_isSome_getElem?.2 (by rw [hanswer]; rfl)
    cases v with
    | pending handle =>
      exact onceFrom_quiet ⟨hs.definitions, List.forall_mem_cons.2 ⟨hmem, hs.awaited⟩⟩ (fun _ _ => trivial) rfl
        fun _ => Iff.rfl
    | _ => exact onceFrom_pure trivial hs
  -- arguments have calls of their own, which start elsewhere, so this one still has no answer when it is run
  | none =>
    have hnone : key ∉ s.answers := fun hmem => by
      rw [ExtTreeMap.mem_iff_isSome_getElem?, hanswer] at hmem
      cases hmem
    show OnceFrom _ _ _ (made ()) s
    simp only [made]
    cases snapshot.registry.find? name with
    | none => exact onceFrom_pure trivial hs
    | some f =>
      dsimp only
      split
      · exact onceFrom_pure trivial hs
      · refine (((h f) hw (fun _ => hanchored) s hs).bind hw fun args t _ _ ht hanswers => ?_).widen
          (l := l ++ [start]) (by simp) fun _ => id
        split
        · exact onceFrom_pure trivial ht
        · exact onceFrom_pure trivial ht
        · refine onceFrom_run f _ hw ht fun hmem => ?_
          rcases hanswers _ hmem with hmem | hown | hforeign
          · exact hnone hmem
          · obtain ⟨other, hother, hkey⟩ := List.mem_map.1 hown
            exact hstart (Scope.callKey_injective hkey ▸ hother)
          · exact hforeign (hanchored start)

end Eval

open Eval in
/-- The habit of running functions once. -/
def onceHabit (snapshot : Snapshot) : Habit snapshot where
  strict := True
  Holds := Once
  ret ha _ _ s hs := onceFrom_pure ha hs
  bind := once_bind
  widen h hl hQ hw hanchored s hs :=
    (h hw (fun hne => hanchored (by rintro rfl; exact hne (List.subset_nil.1 hl))) s hs).widen hl hQ
  ofRead h hw hanchored s hs := (h hw hanchored s hs).read
  ofGet h hw hanchored s hs := (h s hw hanchored s hs).get
  store _ _ _ _ s hs := onceFrom_quiet ⟨hs.definitions, hs.awaited⟩ (fun _ _ => trivial) rfl fun _ => Iff.rfl
  enterCell := once_enterCell
  enterName := once_enterName
  definition {_ _ d k} _ _ := once_definitionNode (fun _ hn _ => hn) snapshot k d
  call hstart h := once_call (hstart trivial) h

namespace Host

lemma drawn_resolve (h : Host) (handle : Nat) : (h.resolve handle).2.drawn = h.drawn := by
  unfold resolve
  split
  · rfl
  · rfl
  · rename_i work _ _
    have hdrawn := drawn_perform h work
    rcases hp : h.perform work with ⟨_ | w, t⟩ <;> rw [hp] at hdrawn <;> exact hdrawn

end Host

namespace Eval

variable {α : Type} {scope : Scope} {s t : Session} {act : Eval Value} {l : List Nat}

/-- The answer of a call that is waited for. -/
def answerOf (x : CallKey × Nat) : Eval (CallKey × Value) := do return (x.1, ← ask (·.resolve x.2))

lemma exec_mapM_answerOf (scope : Scope) (l : List (CallKey × Nat)) (s : Session) : ∃ host : Host,
    (exec (l.mapM answerOf) scope s).2 = { s with host } ∧ host.drawn = s.host.drawn ∧
    ∀ answers : List (CallKey × Value), (exec (l.mapM answerOf) scope s).1 = .ok answers →
      answers.map (·.1) = l.map (·.1) ∧ s.host.Grows host ∧ ∀ x ∈ l, s.host.Known x.2 → x.2 ∈ host.settled := by
  induction l generalizing s with
  | nil =>
    refine ⟨s.host, rfl, rfl, ?_⟩
    rintro answers ⟨⟩
    exact ⟨rfl, Host.Grows.refl _, fun _ hx => nomatch hx⟩
  | cons x l ih =>
    have hdrawn := s.host.drawn_resolve x.2
    rw [List.mapM_cons, exec_bind, answerOf, exec_bind, exec_ask]
    rcases hr : s.host.resolve x.2 with ⟨_ | v, host⟩
    · rw [hr] at hdrawn
      exact ⟨host, rfl, hdrawn, by rintro answers ⟨⟩⟩
    · rw [hr] at hdrawn
      obtain ⟨hgrows, hsettled⟩ := Host.grows_resolve hr
      obtain ⟨last, hstate, hlast, hanswers⟩ := ih { s with host }
      simp only [exec_pure]
      rw [exec_bind]
      rcases he : exec (l.mapM answerOf) scope { s with host } with ⟨there | answers, t⟩
      · rw [he] at hstate
        exact ⟨last, hstate, hlast.trans hdrawn, by rintro answers ⟨⟩⟩
      · rw [he] at hstate hanswers
        obtain ⟨hkeys, hgrows', hsettled'⟩ := hanswers answers rfl
        refine ⟨last, hstate, hlast.trans hdrawn, ?_⟩
        rintro all ⟨⟩
        refine ⟨by rw [List.map_cons, hkeys, List.map_cons], hgrows.trans hgrows', ?_⟩
        exact List.forall_mem_cons.2
          ⟨fun hk => hgrows'.settled _ (hsettled hk), fun y hy hk => hsettled' y hy (hgrows.known _ hk)⟩

lemma exec_answerAwaited_eq (s : Session) :
    exec answerAwaited scope s = exec (s.awaited.reverse.mapM answerOf) scope { s with awaited := [] } := rfl

/-- Has the awaited calls answered and keeps the answers. -/
def takeAnswers : Eval Unit := do
  for (key, v) in ← answerAwaited do
    remember key v

lemma exec_takeAnswers (scope : Scope) (s : Session) : ∃ (host : Host) (answers : List (CallKey × Value)),
    (exec takeAnswers scope s).2 =
      { s with host, awaited := [], answers := answers.foldl (fun m x => m.insert x.1 x.2) s.answers } ∧
    host.drawn = s.host.drawn ∧ (∀ x ∈ answers, x.1 ∈ s.awaited.map (·.1)) ∧
    ((exec takeAnswers scope s).1 = .ok () → ∀ x ∈ s.awaited, s.host.Known x.2 → x.2 ∈ host.settled) := by
  obtain ⟨host, hstate, hdrawn, hanswers⟩ := exec_mapM_answerOf scope s.awaited.reverse { s with awaited := [] }
  rw [takeAnswers, exec_bind, exec_answerAwaited_eq]
  rcases he : exec (s.awaited.reverse.mapM answerOf) scope { s with awaited := [] } with ⟨there | answers, t⟩
  · rw [he] at hstate
    obtain rfl : t = { s with host, awaited := [] } := hstate
    exact ⟨host, [], rfl, hdrawn, by simp, by rintro ⟨⟩⟩
  · rw [he] at hstate hanswers
    obtain rfl : t = { s with host, awaited := [] } := hstate
    obtain ⟨hkeys, -, hsettled⟩ := hanswers answers rfl
    dsimp only
    rw [exec_bind, exec_forIn_remember (by rintro ⟨k, v⟩ _; rfl)]
    refine ⟨host, answers, rfl, hdrawn, fun x hx => ?_, fun _ x hx => hsettled x (List.mem_reverse.2 hx)⟩
    have hmem := List.mem_map_of_mem (f := (·.1)) hx
    rwa [hkeys, List.map_reverse, List.mem_reverse] at hmem

lemma mem_foldl_insert (answers : List (CallKey × Value)) (m : ExtTreeMap CallKey Value) (k : CallKey) :
    k ∈ answers.foldl (fun m x => m.insert x.1 x.2) m ↔ k ∈ answers.map (·.1) ∨ k ∈ m := by
  induction answers generalizing m with
  | nil => simp
  | cons x answers ih =>
    rw [List.foldl_cons, ih, List.map_cons, List.mem_cons, ExtTreeMap.mem_insert, Std.compare_eq_iff_eq]
    grind

lemma once_takeAnswers : Once [] (fun _ => True) scope takeAnswers := by
  intro _ _ s hs
  obtain ⟨host, answers, hstate, hdrawn, hkeys, -⟩ := exec_takeAnswers scope s
  refine onceFrom_quiet ?_ (fun _ _ => trivial) (by rw [hstate, hdrawn]) fun k => ?_
  · rw [hstate]
    exact ⟨hs.definitions, fun _ hx => nomatch hx⟩
  · rw [hstate, mem_foldl_insert]
    refine or_iff_right_of_imp fun hk => ?_
    obtain ⟨x, hx, rfl⟩ := List.mem_map.1 hk
    obtain ⟨y, hy, heq⟩ := List.mem_map.1 (hkeys x hx)
    exact heq ▸ hs.awaited y hy

lemma waitFor_succ (act : Eval Value) (rounds : Nat) : waitFor act (rounds + 1) = (do
    modify fun s => { s with awaited := [] }
    let v ← act
    if (← get).awaited.isEmpty then return v.settled
    takeAnswers
    if (← get).host.generations.isCurrent (← read).generation then waitFor act rounds
    else return .error .calculation) := by
  rw [waitFor]
  simp only [takeAnswers, bind_assoc, pure_bind]

lemma onceFrom_waitFor_succ {rounds : Nat} (h : Once l (fun _ => True) scope act)
    (hagain : Once l (fun _ => True) scope (waitFor act rounds)) (hw : scope.waits = true)
    (hanchored : l ≠ [] → scope.Anchored) (hs : Session.Kept { s with awaited := [] }) :
    OnceFrom l (fun _ => True) scope (waitFor act (rounds + 1)) s := by
  have hclear : OnceFrom [] (fun _ => True) scope (modify fun s => { s with awaited := [] }) s :=
    onceFrom_quiet hs (fun _ _ => trivial) rfl fun _ => Iff.rfl
  have htake : Once l (fun _ => True) scope (do
      takeAnswers
      if (← get).host.generations.isCurrent (← read).generation then waitFor act rounds
      else return .error .calculation) := by
    refine once_bind once_takeAnswers fun _ _ hw hanchored s hs => .get (.read ?_)
    split
    · exact hagain hw hanchored s hs
    · exact onceFrom_pure trivial hs
  rw [waitFor_succ]
  refine hclear.bind hw fun _ t _ _ ht _ => ?_
  refine OnceFrom.widen (l := l ++ l) ((h hw hanchored t ht).bind hw fun v u _ _ hu _ => .get ?_)
    (List.append_subset.2 ⟨List.Subset.refl l, List.Subset.refl l⟩) fun _ => id
  split
  · exact onceFrom_pure trivial hu
  · exact htake hw hanchored u hu

/-- However often it is repeated, an evaluation runs functions once. -/
lemma once_waitFor (h : Once l (fun _ => True) scope act) (rounds : Nat) :
    Once l (fun _ => True) scope (waitFor act rounds) := by
  induction rounds with
  | zero => exact fun _ _ s hs => onceFrom_pure trivial hs
  | succ rounds ih =>
    exact fun hw hanchored s hs => onceFrom_waitFor_succ h ih hw hanchored ⟨hs.definitions, fun _ hx => nomatch hx⟩

/-- All that an evaluation that ends can be said to have run is the same: as many numbers were drawn, and the same calls were
answered. -/
lemma OnceFrom.nodup {Q : Value → Prop} {v : Value} {log : List CallKey} (h : OnceFrom l Q scope act s)
    (hw : scope.waits = true) (hx : exec act scope s = (.ok v, t)) (hruns : Runs act scope s log) : log.Nodup := by
  obtain ⟨-, -, once, honce, hnodup, hfresh⟩ := h
  obtain ⟨hdrawn, hanswers⟩ := honce.spec hw hx
  obtain ⟨hdrawn', hanswers'⟩ := hruns.spec hw hx
  have hsubset : once ⊆ log := fun k hk =>
    ((hanswers' k).1 ((hanswers k).2 (.inr hk))).resolve_left (hfresh k hk).1
  exact ((hnodup.subperm hsubset).perm_of_length_le (by omega)).nodup_iff.1 hnodup

/-! The last attempt. -/

/-- From one attempt of a waiting evaluation to the next: what was waited for is answered. -/
def Round (act : Eval Value) (scope : Scope) (s u : Session) : Prop :=
  ∃ v t, exec act scope { s with awaited := [] } = (.ok v, t) ∧ t.awaited ≠ [] ∧ exec takeAnswers scope t = (.ok (), u)

/-- What the last attempt of a waiting evaluation leaves. At most the answers to what was waited for come after it. -/
def LastAttempt (act : Eval Value) (scope : Scope) (s t s' : Session) : Prop :=
  ∃ (last : Session) (v : Value), Relation.ReflTransGen (Round act scope) s last ∧
    exec act scope { last with awaited := [] } = (.ok v, t) ∧
    (t.awaited = [] ∧ s' = t ∨ t.awaited ≠ [] ∧ exec takeAnswers scope t = (.ok (), s'))

lemma exists_lastAttempt {v : Value} {s s' : Session} {rounds : Nat} (h : exec (waitFor act rounds) scope s = (.ok v, s'))
    (hrounds : 0 < rounds) : ∃ t, LastAttempt act scope s t s' := by
  induction rounds generalizing s with
  | zero => exact absurd hrounds (Nat.lt_irrefl 0)
  | succ rounds ih =>
    rw [waitFor_succ, exec_modify_bind, exec_bind] at h
    rcases hx : exec act scope { s with awaited := [] } with ⟨there | w, t⟩
    · rw [hx] at h
      cases h
    · rw [hx] at h
      dsimp only at h
      rw [exec_get_bind] at h
      by_cases ha : t.awaited = []
      · rw [if_pos (by simpa using ha)] at h
        obtain ⟨-, rfl⟩ := Prod.mk.inj h
        exact ⟨t, s, w, .refl, hx, .inl ⟨ha, rfl⟩⟩
      · rw [if_neg (by simpa using ha), exec_bind] at h
        rcases hanswers : exec takeAnswers scope t with ⟨there | ⟨⟩, u⟩
        · rw [hanswers] at h
          cases h
        · rw [hanswers] at h
          dsimp only at h
          rw [exec_get_bind, exec_read_bind] at h
          have hlast : LastAttempt act scope s t u := ⟨s, w, .refl, hx, .inr ⟨ha, hanswers⟩⟩
          split at h
          · rcases Nat.eq_zero_or_pos rounds with rfl | hpos
            · obtain ⟨-, rfl⟩ := Prod.mk.inj h
              exact ⟨t, hlast⟩
            · obtain ⟨t', last, v', hreach, hlast⟩ := ih h hpos
              exact ⟨t', last, v', .head ⟨w, t, hx, ha, hanswers⟩ hreach, hlast⟩
          · obtain ⟨-, rfl⟩ := Prod.mk.inj h
            exact ⟨t, hlast⟩

lemma LastAttempt.settled {s s' : Session} (h : LastAttempt act scope s t s') :
    ∀ x ∈ t.awaited, t.host.Known x.2 → x.2 ∈ s'.host.settled := by
  obtain ⟨last, v, -, -, ⟨ha, -⟩ | ⟨-, hanswers⟩⟩ := h
  · rw [ha]
    exact fun _ hx => nomatch hx
  · obtain ⟨host, answers, hstate, -, -, hsettled⟩ := exec_takeAnswers scope t
    rw [hanswers] at hstate hsettled
    obtain rfl : s' = _ := hstate
    exact hsettled rfl

end Eval

namespace Interpreter

open Eval

variable {i j : Interpreter} {origin : Origin} {act : Eval Value} {snapshot : Snapshot} {v : Value}

/-- The scope in which a waiting evaluation starts. -/
def waitingScope (i : Interpreter) (origin : Origin) : Scope := { i.scope with waits := true, origin }

/-- What is true of a waiting evaluation that ends: it runs functions, and for no call twice; and when it ends, all handles
that its last attempt has met are settled. -/
structure WaitsWell (i : Interpreter) (origin : Origin) (act : Eval Value) (j : Interpreter) : Prop where
  runs : ∃ log, Runs (waitFor act maxRounds) (i.waitingScope origin) i.session log
  once : ∀ log, Runs (waitFor act maxRounds) (i.waitingScope origin) i.session log → log.Nodup
  settled : ∃ t s', LastAttempt act (i.waitingScope origin) i.session t s' ∧ j.session.host = s'.host ∧
    ∀ x ∈ t.awaited, t.host.Known x.2 → x.2 ∈ j.session.host.settled

lemma waitsWell_of_run {l : List Nat} (h : Once l (fun _ => True) (i.waitingScope origin) act)
    (hanchored : l ≠ [] → (i.waitingScope origin).Anchored)
    (hdefinitions : ∀ (k : NameKey) (n : Node), i.session.definitions[k]? = some n → n.callStarts.Nodup)
    (hrun : i.run true origin act = (some v, j)) : i.WaitsWell origin act j := by
  have hmany : maxRounds ≠ 0 := by decide
  have honce : OnceFrom l (fun _ => True) (i.waitingScope origin) (waitFor act maxRounds) i.session := by
    obtain ⟨rounds, hrounds⟩ := Nat.exists_eq_succ_of_ne_zero hmany
    rw [hrounds]
    exact onceFrom_waitFor_succ h (once_waitFor h rounds) rfl hanchored ⟨hdefinitions, fun _ hx => nomatch hx⟩
  rcases hx : exec (waitFor act maxRounds) (i.waitingScope origin) i.session with ⟨there | w, s'⟩
  · cases hrun.symm.trans (run_waiting_error hx)
  · obtain ⟨-, rfl⟩ := Prod.mk.inj (hrun.symm.trans (run_waiting hx))
    obtain ⟨t, hlast⟩ := exists_lastAttempt hx (Nat.pos_of_ne_zero hmany)
    exact ⟨honce.runs.imp fun _ => And.left, fun log => honce.nodup rfl hx, t, s', hlast, rfl, hlast.settled⟩

/-- Stores the result of a cell unless the evaluation has done so. -/
def keepResult (books : Books) (index : Index) (p : Place) : Option Value × Interpreter → Option Value × Interpreter
  | (none, i) => (none, i)
  | (some v, i) =>
    if i.session.pass.results.contains p then (some v, i)
    else (some v, { i with session := { i.session with pass := i.session.pass.store books index p v } })

lemma evaluateCell_eq (i : Interpreter) (snapshot : Snapshot) (p : Place) (waits : Bool) :
    i.evaluateCell snapshot p waits = match snapshot.index with
      | none => .error .noIndex
      | some index =>
        if !index.cells.contains p then .error (.notAFormula p)
        else .ok (keepResult snapshot.books index p (i.run waits {} (cellAttempt snapshot p))) := rfl

lemma host_keepResult (books : Books) (index : Index) (p : Place) (a : Option Value × Interpreter) :
    (keepResult books index p a).1 = a.1 ∧ (keepResult books index p a).2.session.host = a.2.session.host := by
  obtain ⟨_ | v, k⟩ := a
  · exact ⟨rfl, rfl⟩
  · rw [keepResult]
    split <;> exact ⟨rfl, rfl⟩

lemma run_of_evaluateCell {p : Place} {waits : Bool} {o : Option Value} (hrun : i.evaluateCell snapshot p waits = .ok (o, j)) :
    ∃ k, i.run waits {} (cellAttempt snapshot p) = (o, k) ∧ j.session.host = k.session.host := by
  rw [evaluateCell_eq] at hrun
  split at hrun
  · cases hrun
  · rename_i index _
    split at hrun
    · cases hrun
    · obtain ⟨ho, hj⟩ := host_keepResult snapshot.books index p (i.run waits {} (cellAttempt snapshot p))
      rw [Except.ok.inj hrun] at ho hj
      exact ⟨(i.run waits {} (cellAttempt snapshot p)).2, Prod.ext ho.symm rfl, hj⟩

/-- Evaluations of formulas and of formula cells that wait for answers run no function twice for a call, and do not end before
all handles that their last attempt has met are settled, provided that calls of a formula start at different places. -/
theorem waitsWell (i : Interpreter) (hdistinct : Likeness.Distinct snapshot)
    (hdefinitions : ∀ (k : NameKey) (n : Node), i.session.definitions[k]? = some n → n.callStarts.Nodup) :
    (∀ (n : Node) (v : Value) (j : Interpreter), n.callStarts.Nodup → i.evaluate snapshot n true = (some v, j) →
      { i with session := { i.session with entries := i.session.entries + 1 } }.WaitsWell
        { entry := i.session.entries + 1 } (snapshot.evaluator.value n) j) ∧
    ∀ (p : Place) (v : Value) (j : Interpreter), i.evaluateCell snapshot p true = .ok (some v, j) →
      i.WaitsWell {} (cellAttempt snapshot p) j := by
  refine ⟨fun n v j hn hrun => ?_, fun p v j hrun => ?_⟩
  · have hattempt : ∀ scope, Once n.callStarts (fun _ => True) scope (snapshot.evaluator.value n) := fun _ =>
      (onceHabit snapshot).value (fun _ => hdistinct) fun _ => hn
    exact waitsWell_of_run (hattempt _) (fun _ start hentry => absurd hentry (Nat.succ_ne_zero _)) hdefinitions hrun
  · have hattempt : ∀ scope, Once [] (fun _ => True) scope (cellAttempt snapshot p) := fun _ =>
      (onceHabit snapshot).cellAttempt (fun _ => hdistinct) p
    obtain ⟨k, hend, hhost⟩ := run_of_evaluateCell hrun
    obtain ⟨hruns, honce, hsettled⟩ := waitsWell_of_run (hattempt _) (fun hne => (hne rfl).elim) hdefinitions hend
    exact ⟨hruns, honce, by rwa [hhost]⟩

/-- A workbook with one formula, which calls a function whose answer comes later. -/
def lateCell : Place := ⟨"", "", 0, 0⟩

def lateCall : Node := .call ⟨0, 3⟩ "F" []

def lateEntry : Entry := ⟨"=F()", lateCall, [], [], [], false, lateCell.region⟩

def lateFunction : FunctionDef where
  name := "F"
  minArgs := 0
  maxArgs := some 0
  run _ _ := .later (.answer (.boolean true))

def lateSnapshot : Snapshot where
  registry := ⟨(∅ : ExtTreeMap String FunctionDef).insert "F" lateFunction⟩
  books := .empty
  names := .empty
  index := some { cells := (∅ : PlaceMap Entry).insert lateCell lateEntry }

def lateInterpreter : Interpreter := ⟨{ cursor := ⟨lateCell, maxRows, maxCols⟩ }, {}, none⟩

theorem waitsWell_late :
    (∃ j : Interpreter, lateInterpreter.evaluate lateSnapshot lateCall true = (some (.boolean true), j) ∧
      j.session.host.drawn = 1 ∧
      WaitsWell { lateInterpreter with session := { entries := 1 } } { entry := 1 } (lateSnapshot.evaluator.value lateCall) j) ∧
    ∃ j : Interpreter, lateInterpreter.evaluateCell lateSnapshot lateCell true = .ok (some (.boolean true), j) ∧
      j.session.host.drawn = 1 ∧ lateInterpreter.WaitsWell {} (cellAttempt lateSnapshot lateCell) j := by
  have hdistinct : Likeness.Distinct lateSnapshot := by
    intro p e he
    have he : ((∅ : PlaceMap Entry).insert lateCell lateEntry)[p]? = some e := he
    rw [ExtTreeMap.getElem?_insert] at he
    split at he
    · obtain rfl := Option.some.inj he
      decide
    · cases he
  have hnone : ∀ (k : NameKey) (n : Node), lateInterpreter.session.definitions[k]? = some n → n.callStarts.Nodup := by
    intro k n hk
    cases hk
  have hevaluate : lateInterpreter.evaluate lateSnapshot lateCall true =
    (some (.boolean true), (lateInterpreter.evaluate lateSnapshot lateCall true).2) := rfl
  have hcell : lateInterpreter.evaluateCell lateSnapshot lateCell true =
    .ok (some (.boolean true), (lateInterpreter.run true {} (cellAttempt lateSnapshot lateCell)).2) := rfl
  obtain ⟨hformula, hformulaCell⟩ := waitsWell lateInterpreter hdistinct hnone
  exact ⟨⟨_, hevaluate, rfl, hformula _ _ _ (by decide) hevaluate⟩, _, hcell, rfl, hformulaCell _ _ _ hcell⟩

end Interpreter

end Spreadsheet
