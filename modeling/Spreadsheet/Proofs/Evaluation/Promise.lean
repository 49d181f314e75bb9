import Spreadsheet.Evaluation.Host
import Spreadsheet.Proofs.Function.Builtin

/-! Work that a host has left for later, and the answers that it owes for it. -/

namespace Spreadsheet

open Std

namespace Task

/-- The answer of a task, however often it is put off. -/
def outcome : Task → Value
  | answer v => v
  | fault => .error .calculation
  | later work => work.outcome
  | supersede next => next.outcome

/-- The task does nothing but put off its answer, at most so many times. -/
def Delays : Nat → Task → Prop
  | _, answer _ => True
  | n + 1, later work => work.Delays n
  | _, _ => False

/-- The task gives a value, which it puts off so many times at most, unless it breaks off where it may. -/
def Gives (stops : Prop) (w : Value) : Nat → Task → Prop
  | _, answer v => v = w
  | _, fault => stops
  | n + 1, later work => work.Gives stops w n
  | _, _ => False

variable {stops : Prop} {w : Value} {work : Task} {n m : Nat}

lemma Delays.gives (h : work.Delays n) : work.Gives stops work.outcome n := by
  induction n generalizing work with
  | zero =>
    cases work with
    | answer => rfl
    | _ => exact h.elim
  | succ n ih =>
    cases work with
    | answer => rfl
    | later work =>
      have hlater : work.Delays n := h
      exact ih hlater
    | _ => exact h.elim

lemma Gives.mono (h : work.Gives stops w n) (hnm : n ≤ m) : work.Gives stops w m := by
  induction n generalizing work m with
  | zero =>
    cases work with
    | answer => cases m <;> exact h
    | fault => cases m <;> exact h
    | _ => exact h.elim
  | succ n ih =>
    cases m with
    | zero => exact absurd hnm (Nat.not_succ_le_zero n)
    | succ m =>
      cases work with
      | answer => exact h
      | fault => exact h
      | later work =>
        have hlater : work.Gives stops w n := h
        have hmono : work.Gives stops w m := ih hlater (Nat.le_of_succ_le_succ hnm)
        exact hmono
      | supersede next => exact h.elim

end Task

/-- The function as it would be if it gave its answers directly. -/
def FunctionDef.resolved (f : FunctionDef) : FunctionDef :=
  { f with run := fun args site => .answer (f.run args site).outcome }

/-- The function gives its answers directly. -/
def FunctionDef.Direct (f : FunctionDef) : Prop := ∀ args site, ∃ v, f.run args site = .answer v

/-- The function takes the arguments of another one and gives what that one answers at once. -/
structure FunctionDef.AmountsTo (f g : FunctionDef) (stops : Prop) (bound : Nat) : Prop where
  rules : f.rules = g.rules
  accepts : ∀ count, f.accepts count = g.accepts count
  gives : g.Steady → ∀ args site, (f.run args site).Gives stops (g.answer args site.place) bound

lemma FunctionDef.amountsTo_self (f : FunctionDef) (stops : Prop) : f.AmountsTo f stops 0 := by
  refine ⟨rfl, fun _ => rfl, fun hf args site => ?_⟩
  rw [hf.run_eq]
  rfl

lemma FunctionDef.amountsTo_resolved {f : FunctionDef} {bound : Nat} (h : ∀ args site, (f.run args site).Delays bound)
    (stops : Prop) : f.AmountsTo f.resolved stops bound := by
  refine ⟨rfl, fun _ => rfl, fun hf args site => ?_⟩
  rw [← show (f.run args site).outcome = f.resolved.answer args site.place from Task.answer.inj (hf.run_eq args site)]
  exact (h args site).gives

lemma FunctionDef.Direct.resolved_eq {f : FunctionDef} (h : f.Direct) : f.resolved = f := by
  have hrun : (fun args site => Task.answer (f.run args site).outcome) = f.run := by
    funext args site
    obtain ⟨v, hv⟩ := h args site
    rw [hv, Task.outcome]
  rw [resolved, hrun]

namespace Registry

/-- The registry in which every function gives its answers directly. -/
def resolved (r : Registry) : Registry := ⟨r.functions.map fun _ f => f.resolved⟩

lemma find?_resolved (r : Registry) (name : String) : r.resolved.find? name = (r.find? name).map FunctionDef.resolved :=
  ExtTreeMap.getElem?_map

/-- Functions of the same names amount to one another. -/
def AmountsTo (r r' : Registry) (stops : Prop) (bound : Nat) : Prop :=
  ∀ name, Option.Rel (FunctionDef.AmountsTo · · stops bound) (r.find? name) (r'.find? name)

lemma AmountsTo.find? {r r' : Registry} {stops : Prop} {bound : Nat} (h : r.AmountsTo r' stops bound) (name : String) :
    r.find? name = none ∧ r'.find? name = none ∨
      ∃ f g, r.find? name = some f ∧ r'.find? name = some g ∧ f.AmountsTo g stops bound := by
  have hname := h name
  generalize r.find? name = o at hname
  generalize r'.find? name = o' at hname
  cases hname with
  | none => exact Or.inl ⟨rfl, rfl⟩
  | some hfg => exact Or.inr ⟨_, _, rfl, rfl, hfg⟩

lemma amountsTo_self (r : Registry) (stops : Prop) : r.AmountsTo r stops 0 := by
  intro name
  cases r.find? name with
  | none => exact .none
  | some f => exact .some (f.amountsTo_self stops)

open Spreadsheet.Function in
lemma direct_builtin {key : String} {f : FunctionDef} (h : builtin.functions[key]? = some f) : f.Direct := by
  obtain ⟨hf, -⟩ := mem_of_getElem?_builtin h
  have hall : ∀ f ∈ lookupFunctions ++ mathFunctions ++ logicFunctions ++ infoFunctions ++ textFunctions ++ dateFunctions,
      f.Direct := by
    simp only [lookupFunctions, mathFunctions, logicFunctions, infoFunctions, textFunctions, dateFunctions,
      List.forall_mem_append, List.forall_mem_cons, List.not_mem_nil, false_implies, implies_true, and_true]
    and_intros <;> exact fun _ _ => ⟨_, rfl⟩
  exact hall f hf

lemma resolved_builtin : builtin.resolved = builtin := by
  have hmap : builtin.functions.map (fun _ f => f.resolved) = builtin.functions := by
    refine ExtTreeMap.ext_getElem? fun key => ?_
    rw [ExtTreeMap.getElem?_map]
    cases hf : builtin.functions[key]? with
    | none => rfl
    | some f => rw [Option.map_some, (direct_builtin hf).resolved_eq]
  rw [resolved, hmap]

lemma isVolatile_resolved (r : Registry) (name : String) : r.resolved.isVolatile name = r.isVolatile name := by
  rw [isVolatile, isVolatile, find?_resolved]
  cases r.find? name <;> rfl

end Registry

namespace Host

/-- Answers are known only for handles that were given out. -/
def Proper (h : Host) : Prop := ∀ (handle : Nat) (v : Value), h.settled[handle]? = some v → handle < h.nextHandle

/-- The value is what is owed, or a handle for it; whoever follows handles gets to it after so many of them, unless the
work behind one breaks off where it may. -/
def Owes (h : Host) (stops : Prop) (w : Value) : Nat → Value → Prop
  | 0, v => v = w
  | n + 1, v => v = w ∨ ∃ handle, v = .pending handle ∧ handle < h.nextHandle ∧
      ((∃ u, h.settled[handle]? = some u ∧ h.Owes stops w n u) ∨
        h.settled[handle]? = none ∧ ∃ work, h.waiting[handle]? = some work ∧ work.Gives stops w n)

/-- What is owed stays owed. -/
def Keeps (h h' : Host) : Prop := ∀ stops w n v, h.Owes stops w n v → h'.Owes stops w n v

variable {h h' : Host} {stops : Prop} {v w : Value} {n m handle : Nat} {work : Task}

lemma owes_self (h : Host) (stops : Prop) (w : Value) (n : Nat) : h.Owes stops w n w := by
  cases n with
  | zero => rfl
  | succ n => exact Or.inl rfl

lemma Owes.pos (ho : h.Owes stops w n (.pending handle)) (hw : w.isPending = false) : 0 < n := by
  cases n with
  | zero =>
    rw [← show Value.pending handle = w from ho] at hw
    cases hw
  | succ n => exact Nat.succ_pos n

lemma Owes.eq_or_pending (ho : h.Owes stops w n v) : v = w ∨ ∃ handle, v = .pending handle := by
  cases n with
  | zero => exact Or.inl ho
  | succ n => exact ho.imp_right fun ⟨handle, hv, _⟩ => ⟨handle, hv⟩

lemma Keeps.refl (h : Host) : h.Keeps h := fun _ _ _ _ => id

lemma Keeps.trans {h'' : Host} (hk : h.Keeps h') (hk' : h'.Keeps h'') : h.Keeps h'' :=
  fun stops w n v ho => hk' stops w n v (hk stops w n v ho)

lemma keeps_of_eq (hn : h'.nextHandle = h.nextHandle) (hs : h'.settled = h.settled) (hw : h'.waiting = h.waiting) :
    h.Keeps h' := by
  intro stops w n
  induction n with
  | zero => exact fun _ ho => ho
  | succ n ih =>
    intro v ho
    rcases ho with rfl | ⟨handle, rfl, hlt, ho⟩
    · exact owes_self ..
    · rw [Owes, hn, hs, hw]
      refine Or.inr ⟨handle, rfl, hlt, ho.imp_left ?_⟩
      rintro ⟨u, hu, ho⟩
      exact ⟨u, hu, ih u ho⟩

lemma Owes.mono (ho : h.Owes stops w n v) (hnm : n ≤ m) : h.Owes stops w m v := by
  induction n generalizing v m with
  | zero =>
    rw [show v = w from ho]
    exact owes_self ..
  | succ n ih =>
    rcases ho with rfl | ⟨handle, rfl, hlt, ho⟩
    · exact owes_self ..
    · cases m with
      | zero => exact absurd hnm (Nat.not_succ_le_zero n)
      | succ m =>
        have hnm := Nat.le_of_succ_le_succ hnm
        refine Or.inr ⟨handle, rfl, hlt, ho.imp ?_ ?_⟩
        · rintro ⟨u, hu, ho⟩
          exact ⟨u, hu, ih ho hnm⟩
        · rintro ⟨hnone, work, hwork, hgives⟩
          exact ⟨hnone, work, hwork, hgives.mono hnm⟩

lemma keeps_defer (h : Host) (work : Task) : h.Keeps (h.defer work).2 := by
  intro stops w n
  induction n with
  | zero => exact fun _ ho => ho
  | succ n ih =>
    intro v ho
    rcases ho with rfl | ⟨handle, rfl, hlt, ho⟩
    · exact owes_self ..
    · refine Or.inr ⟨handle, rfl, Nat.lt_succ_of_lt hlt, ho.imp ?_ ?_⟩
      · rintro ⟨u, hu, ho⟩
        exact ⟨u, hu, ih u ho⟩
      · rintro ⟨hnone, work', hwork, hgives⟩
        refine ⟨hnone, work', ?_, hgives⟩
        simp only [defer, ExtTreeMap.getElem?_insert, Std.compare_eq_iff_eq]
        rwa [if_neg (Nat.ne_of_gt hlt)]

/-- A task that does nothing but put off its answer leaves a handle at most. -/
structure Performs (h : Host) (work : Task) (v : Value) (h' : Host) : Prop where
  perform : h.perform work = (some v, h')
  owes : ∀ stops w n, work.Gives stops w n → h'.Owes stops w n v
  keeps : h.Keeps h'
  proper : h'.Proper
  generations : h'.generations = h.generations
  settled : h'.settled = h.settled
  nextHandle : h.nextHandle ≤ h'.nextHandle
  waiting : ∀ handle < h.nextHandle, h'.waiting[handle]? = h.waiting[handle]?

lemma performs_or_stops (hp : h.Proper) (hd : work.Gives stops w n) :
    (∃ v h', h.Performs work v h') ∨ stops ∧ h.perform work = (none, h) := by
  cases work with
  | answer v =>
    refine Or.inl ⟨v, h, rfl, fun stops w m hm => ?_, Keeps.refl h, hp, rfl, rfl, Nat.le_refl _, fun _ _ => rfl⟩
    obtain rfl : v = w := by cases m <;> exact hm
    exact owes_self ..
  | fault =>
    refine Or.inr ⟨?_, rfl⟩
    cases n <;> exact hd
  | later work =>
    refine Or.inl ⟨.pending h.nextHandle, (h.defer work).2, rfl, fun stops w m hm => ?_, keeps_defer h work, ?_, rfl, rfl,
      Nat.le_succ _, ?_⟩
    · cases m with
      | zero => exact hm.elim
      | succ m =>
        refine Or.inr ⟨h.nextHandle, rfl, Nat.lt_succ_self _, Or.inr ⟨?_, work, ?_, hm⟩⟩
        · rw [Option.eq_none_iff_forall_ne_some]
          exact fun v hv => absurd (hp _ _ hv) (Nat.lt_irrefl _)
        · simp [defer]
    · exact fun handle v hv => Nat.lt_succ_of_lt (hp handle v hv)
    · intro handle hlt
      simp only [defer, ExtTreeMap.getElem?_insert, Std.compare_eq_iff_eq]
      exact if_neg (Nat.ne_of_gt hlt)
  | supersede next => cases n <;> exact hd.elim

lemma keeps_settle (hnone : h.settled[handle]? = none) (hwork : h.waiting[handle]? = some work)
    (hv : ∀ stops w n, work.Gives stops w n → h.Owes stops w n v) :
    h.Keeps { h with settled := h.settled.insert handle v } := by
  intro stops w n
  induction n with
  | zero => exact fun _ ho => ho
  | succ n ih =>
    intro u ho
    rcases ho with rfl | ⟨other, rfl, hlt, ho⟩
    · exact owes_self ..
    · refine Or.inr ⟨other, rfl, hlt, ?_⟩
      simp only [ExtTreeMap.getElem?_insert, Std.compare_eq_iff_eq]
      by_cases hother : handle = other
      · subst hother
        have hopen : ¬ ∃ u, h.settled[handle]? = some u ∧ h.Owes stops w n u := by simp [hnone]
        obtain ⟨-, work', hwork', hgives⟩ := ho.resolve_left hopen
        obtain rfl := Option.some.inj (hwork.symm.trans hwork')
        exact Or.inl ⟨v, if_pos rfl, ih v (hv stops w n hgives)⟩
      · simp only [if_neg hother]
        refine ho.imp_left ?_
        rintro ⟨u, hu, ho⟩
        exact ⟨u, hu, ih u ho⟩

/-- Whoever asks for an answer that is owed comes one step nearer to it. -/
lemma resolve_owed (hp : h.Proper) (hw : w.isPending = false) (ho : h.Owes stops w (n + 1) (.pending handle)) :
    (∃ u h', h.resolve handle = (some u, h') ∧ h'.Owes stops w n u ∧ h.Keeps h' ∧ h'.Proper ∧
      h'.generations = h.generations) ∨ stops ∧ h.resolve handle = (none, h) := by
  obtain ⟨other, heq, hlt, ho⟩ := ho.resolve_left fun heq => by
    rw [← heq] at hw
    cases hw
  obtain rfl := Value.pending.inj heq
  rcases ho with ⟨u, hu, ho⟩ | ⟨hnone, work, hwork, hgives⟩
  · exact Or.inl ⟨u, h, by simp only [resolve, hu], ho, Keeps.refl h, hp, rfl⟩
  rcases performs_or_stops hp hgives with ⟨v, h', hperforms⟩ | ⟨hstops, hperform⟩
  · have hnone' : h'.settled[handle]? = none := by rw [hperforms.settled, hnone]
    have hwork' : h'.waiting[handle]? = some work := by rw [hperforms.waiting handle hlt, hwork]
    have hkeeps := keeps_settle hnone' hwork' hperforms.owes
    refine Or.inl ⟨v, { h' with settled := h'.settled.insert handle v }, ?_, ?_, hperforms.keeps.trans hkeeps, ?_,
      hperforms.generations⟩
    · simp only [resolve, hnone, hwork, hperforms.perform]
    · exact hkeeps _ _ _ _ (hperforms.owes stops w n hgives)
    · intro other u hu
      simp only [ExtTreeMap.getElem?_insert, Std.compare_eq_iff_eq] at hu
      split at hu
      · rename_i heq
        subst heq
        exact Nat.lt_of_lt_of_le hlt hperforms.nextHandle
      · exact hperforms.proper other u hu
  · exact Or.inr ⟨hstops, by simp only [resolve, hnone, hwork, hperform]⟩

lemma call_owed {f g : FunctionDef} (hp : h.Proper) (hf : f.AmountsTo g stops n) (hg : g.Steady) (args : List Value)
    (p : Place) (rows cols : Nat) :
    (∃ v h', h.call f args p rows cols = (some v, h') ∧ h'.Owes stops (g.answer args p) n v ∧ h.Keeps h' ∧ h'.Proper ∧
      h'.generations = h.generations) ∨
    stops ∧ ∃ h', h.call f args p rows cols = (none, h') ∧ h.Keeps h' ∧ h'.Proper ∧ h'.generations = h.generations := by
  have hkeeps : h.Keeps (h.countRun f.name).draw.2 := keeps_of_eq rfl rfl rfl
  have hproper : (h.countRun f.name).draw.2.Proper := hp
  have hgives := hf.gives hg args
    { place := p, rowCount := rows, colCount := cols, moment := h.moment, draw := (h.countRun f.name).draw.1 }
  rcases performs_or_stops hproper hgives with ⟨v, h', hperforms⟩ | ⟨hstops, hperform⟩
  · exact Or.inl ⟨v, h', hperforms.perform, hperforms.owes stops _ n hgives, hkeeps.trans hperforms.keeps,
      hperforms.proper, hperforms.generations⟩
  · exact Or.inr ⟨hstops, (h.countRun f.name).draw.2, hperform, hkeeps, hproper, rfl⟩

end Host

end Spreadsheet
