import Spreadsheet.Proofs.Engine.Agreement
import Spreadsheet.Proofs.Engine.Reach
import Spreadsheet.Proofs.Evaluation.Twin

/-! A calculation is superseded as soon as a newer generation is started while it runs. Then it leaves no trace: the next
calculation that runs undisturbed reports what this one would have reported. -/

namespace Spreadsheet

open Std Dependency Formula

namespace Calculation

variable {c : Calculation} {i j : Interpreter} {host host' : Host} {cursor : Cursor} {report : Report}

/-! What becomes of the host. -/

lemma later_evaluateCell (c : Calculation) (i : Interpreter) (p : Place) :
    i.session.host.Later (c.evaluateCell i p).session.host := by
  unfold evaluateCell
  rcases hrun : i.evaluateCell c.snapshot p c.waits with e | ⟨_ | v, j⟩
  · exact Host.Later.refl _
  all_goals
    have hlater := Interpreter.later_evaluateCell hrun
    exact hlater

lemma later_evaluateCells (c : Calculation) (i : Interpreter) (l : List Place) :
    i.session.host.Later (c.evaluateCells i l).session.host := by
  induction l generalizing i with
  | nil => exact Host.Later.refl _
  | cons p l ih =>
    have hcell := c.later_evaluateCell i p
    rw [evaluateCells]
    split
    · exact hcell.trans (ih _)
    · exact hcell

/-- What a formula outside the cells leaves; where it breaks off, an error. -/
def otherValue : Option Value × Interpreter → Value × Interpreter
  | (some v, i) => (v, i)
  | (none, i) => (.error .calculation, i.reset)

/-- The cell in which a formula outside the cells is evaluated. -/
def otherCursor (c : Calculation) (e : Entry) : Cursor :=
  c.config.books.cursor ⟨e.output.book, e.output.sheet, e.output.range.start.row, e.output.range.start.col⟩

lemma evaluateOther_eq (c : Calculation) (i : Interpreter) (e : Entry) :
    c.evaluateOther i e = otherValue ((i.moveTo (c.otherCursor e)).evaluate c.snapshot e.node c.waits) := rfl

lemma host_otherValue (a : Option Value × Interpreter) : (otherValue a).2.session.host = a.2.session.host := by
  obtain ⟨_ | v, i⟩ := a <;> rfl

lemma later_evaluateOther (c : Calculation) (i : Interpreter) (e : Entry) :
    i.session.host.Later (c.evaluateOther i e).2.session.host := by
  rw [evaluateOther_eq, host_otherValue]
  exact Interpreter.later_evaluate (i := i.moveTo (c.otherCursor e)) rfl

lemma later_otherStep (c : Calculation) (y : ItemMap Value × Interpreter) (k : ItemKey) :
    y.2.session.host.Later (c.otherStep y k).2.session.host := by
  unfold otherStep
  cases c.index.other? k with
  | none => exact Host.Later.refl _
  | some e => exact c.later_evaluateOther y.2 e

lemma later_evaluateOthers (c : Calculation) (i : Interpreter) :
    i.session.host.Later (c.evaluateOthers i).2.session.host := by
  rw [evaluateOthers_eq]
  exact List.foldlRecOn (motive := fun y : ItemMap Value × Interpreter => i.session.host.Later y.2.session.host) _ _
    (Host.Later.refl _) fun y hy k _ => hy.trans (c.later_otherStep y k)

lemma later_firstRound (c : Calculation) (host : Host) (cursor : Cursor) :
    host.Later (c.firstRound host cursor).session.host := c.later_evaluateCells (c.interpreter host cursor) _

lemma later_secondRound (c : Calculation) (host : Host) (cursor : Cursor) :
    host.Later (c.secondRound host cursor).session.host := by
  have hagain := c.later_evaluateCells ((c.firstRound host cursor).modifyPass fun pass =>
    (c.spillReaders (c.firstRound host cursor).session.pass).foldl Pass.invalidate pass)
    (c.spillReaders (c.firstRound host cursor).session.pass)
  exact (c.later_firstRound host cursor).trans hagain

lemma later_run (c : Calculation) (host : Host) (cursor : Cursor) : host.Later (c.run host cursor).2 := by
  have hsecond := c.later_secondRound host cursor
  rw [run_eq]
  split
  · exact c.later_firstRound host cursor
  · split
    · exact hsecond
    · dsimp only
      split <;> exact hsecond.trans (c.later_evaluateOthers _)

lemma run_superseded : (∃ g, (c.run host cursor).1 = .superseded g) ↔
    (c.run host cursor).2.generations.isCurrent c.generation = false := by
  rw [run_eq]
  have hstale : ∀ {i : Interpreter}, (!c.isCurrent i) = true →
      ((∃ g, (Outcome.superseded c.generation, i.session.host).1 = .superseded g) ↔
        i.session.host.generations.isCurrent c.generation = false) := by
    intro i hi
    rw [Bool.not_eq_true'] at hi
    exact ⟨fun _ => hi, fun _ => ⟨_, rfl⟩⟩
  split
  · exact hstale ‹_›
  · split
    · exact hstale ‹_›
    · dsimp only
      split
      · exact hstale ‹_›
      · rename_i hcurrent
        rw [Bool.not_eq_true', Bool.not_eq_false] at hcurrent
        refine ⟨nofun, fun hstale => ?_⟩
        rw [isCurrent, hstale] at hcurrent
        cases hcurrent

lemma current_of_completed (hrun : (c.run host cursor).1 = .completed report) :
    c.isCurrent (c.evaluateOthers (c.secondRound host cursor)).2 = true := by
  rw [run_eq] at hrun
  split at hrun
  · cases hrun
  · split at hrun
    · cases hrun
    · dsimp only at hrun
      split at hrun
      · cases hrun
      · rename_i hcurrent
        rwa [Bool.not_eq_true', Bool.not_eq_false] at hcurrent

/-! Two calculations side by side. -/

/-- The calculation with functions that start no generations, as one with a generation of its own. -/
def calm (c : Calculation) (generation : Nat) : Calculation := { c with registry := c.registry.calm, generation }

variable {T : Twin}

/-- Either a generation has been started on the left, or both have the same values of formulas outside the cells, and their
interpreters have done the same. -/
def Abreast (T : Twin) (y z : ItemMap Value × Interpreter) : Prop :=
  T.generation < y.2.session.host.generations.latest ∨ z.1 = y.1 ∧ T.Interpreters y.2 z.2

lemma lt_of_stale {g : Nat} (hle : g ≤ host.generations.latest) (h : host.generations.isCurrent g = false) :
    g < host.generations.latest := by
  rw [Generations.isCurrent, beq_eq_false_iff_ne] at h
  exact Nat.lt_of_le_of_ne hle h

lemma abreast_evaluateCell (hpure : c.registry.Pure) (h : T.Interpreters i j)
    (hle : T.generation ≤ i.session.host.generations.latest) (p : Place) :
    T.generation < (c.evaluateCell i p).session.host.generations.latest ∨
      T.Interpreters (c.evaluateCell i p) ((c.calm T.generation').evaluateCell j p) := by
  have hle' := hle.trans (c.later_evaluateCell i p).latest
  have hfree : ∀ s : Pass, s.Only Value.HandleFree →
      (s.store c.config.books c.index p (.error .calculation)).Only Value.HandleFree := fun s hs => hs.store (.flat trivial)
  unfold evaluateCell at hle' ⊢
  have hpure : c.snapshot.registry.Pure := hpure
  rcases h.evaluateCell hpure p c.waits with ⟨e, hi, hj⟩ | ⟨⟨o, i'⟩, ⟨o', j'⟩, hi, hj, hgives⟩
  · right
    rw [hi, show j.evaluateCell (c.calm T.generation').snapshot p (c.calm T.generation').waits = _ from hj]
    exact h.reset.modifyPass hfree
  · rw [hi] at hle' ⊢
    rw [show j.evaluateCell (c.calm T.generation').snapshot p (c.calm T.generation').waits = _ from hj]
    rcases hgives with hstale | ⟨heq, -, hij⟩
    · left
      cases o <;> exact lt_of_stale hle' hstale
    · right
      obtain rfl : o' = o := heq
      cases o' with
      | none => exact hij.reset.modifyPass hfree
      | some v => exact hij

lemma abreast_evaluateCells (hpure : c.registry.Pure) (hgeneration : c.generation = T.generation) (h : T.Interpreters i j)
    (hle : T.generation ≤ i.session.host.generations.latest) (l : List Place) :
    T.generation < (c.evaluateCells i l).session.host.generations.latest ∨
      T.Interpreters (c.evaluateCells i l) ((c.calm T.generation').evaluateCells j l) := by
  induction l generalizing i j with
  | nil => exact .inr h
  | cons p l ih =>
    have hle' := hle.trans (c.later_evaluateCell i p).latest
    have hcell := abreast_evaluateCell hpure h hle p
    rw [evaluateCells, evaluateCells]
    cases hcurrent : c.isCurrent (c.evaluateCell i p) with
    | false =>
      left
      rw [if_neg Bool.false_ne_true]
      rw [isCurrent, hgeneration] at hcurrent
      exact lt_of_stale hle' hcurrent
    | true =>
      rw [if_pos rfl]
      rcases hcell with hlt | hij
      · exact .inl (hlt.trans_le (c.later_evaluateCells _ l).latest)
      · rw [if_pos (by rw [isCurrent, Generations.isCurrent, hij.sessions.hosts.latest]; exact beq_self_eq_true _)]
        exact ih hij hle'

lemma abreast_evaluateOther (hpure : c.registry.Pure) (h : T.Interpreters i j)
    (hle : T.generation ≤ i.session.host.generations.latest) (e : Entry) :
    T.generation < (c.evaluateOther i e).2.session.host.generations.latest ∨
      ((c.calm T.generation').evaluateOther j e).1 = (c.evaluateOther i e).1 ∧
        T.Interpreters (c.evaluateOther i e).2 ((c.calm T.generation').evaluateOther j e).2 := by
  have hle' := hle.trans (c.later_evaluateOther i e).latest
  have hpure : c.snapshot.registry.Pure := hpure
  have hgives := (h.moveTo (c.otherCursor e)).evaluate hpure e.node c.waits
  have hcalm : (c.calm T.generation').evaluateOther j e =
      otherValue ((j.moveTo (c.otherCursor e)).evaluate c.snapshot.calm e.node c.waits) := rfl
  rw [evaluateOther_eq] at hle' ⊢
  rw [hcalm]
  generalize (i.moveTo (c.otherCursor e)).evaluate c.snapshot e.node c.waits = a at hgives hle' ⊢
  generalize (j.moveTo (c.otherCursor e)).evaluate c.snapshot.calm e.node c.waits = b at hgives ⊢
  rcases hgives with hstale | ⟨heq, -, hij⟩
  · left
    rw [host_otherValue] at hle' ⊢
    exact lt_of_stale hle' hstale
  · right
    obtain ⟨o, i'⟩ := a
    obtain ⟨o', j'⟩ := b
    obtain rfl : o' = o := heq
    cases o' with
    | none => exact ⟨rfl, hij.reset⟩
    | some v => exact ⟨rfl, hij⟩

lemma abreast_otherStep (hpure : c.registry.Pure) {y z : ItemMap Value × Interpreter} (h : Abreast T y z)
    (hle : T.generation ≤ y.2.session.host.generations.latest) (k : ItemKey) :
    Abreast T (c.otherStep y k) ((c.calm T.generation').otherStep z k) := by
  rcases h with hlt | ⟨heq, hij⟩
  · exact .inl (hlt.trans_le (c.later_otherStep y k).latest)
  · unfold otherStep
    rw [show (c.calm T.generation').index = c.index from rfl]
    cases c.index.other? k with
    | none => exact .inr ⟨heq, hij⟩
    | some e =>
      refine (abreast_evaluateOther hpure hij hle e).imp_right ?_
      rintro ⟨hvalue, hij⟩
      refine ⟨?_, hij⟩
      dsimp only
      rw [hvalue, heq]

lemma abreast_evaluateOthers (hpure : c.registry.Pure) (h : T.Interpreters i j)
    (hle : T.generation ≤ i.session.host.generations.latest) :
    Abreast T (c.evaluateOthers i) ((c.calm T.generation').evaluateOthers j) := by
  have hfold : ∀ (l : List ItemKey) (y z : ItemMap Value × Interpreter), Abreast T y z →
      T.generation ≤ y.2.session.host.generations.latest →
      Abreast T (l.foldl c.otherStep y) (l.foldl (c.calm T.generation').otherStep z) := by
    intro l
    induction l with
    | nil => exact fun y z h _ => h
    | cons k l ih =>
      exact fun y z h hle => ih _ _ (abreast_otherStep hpure h hle k) (hle.trans (c.later_otherStep y k).latest)
  exact hfold c.plan.others _ _ (.inr ⟨rfl, h⟩) hle

lemma only_start (c : Calculation) : c.start.Only Value.HandleFree where
  results p v hv := by
    rw [results_start, Option.ite_none_right_eq_some] at hv
    obtain rfl := Option.some.inj hv.2
    exact .flat trivial
  spilled p v hv := by
    rw [(sameArrays_start c).spilled] at hv
    exact .flat (flat_seededPass.spilled p v hv).isFlat

lemma only_foldl_invalidate {s : Pass} (h : s.Only Value.HandleFree) (l : List Place) :
    (l.foldl Pass.invalidate s).Only Value.HandleFree := by
  refine List.foldlRecOn (motive := fun s : Pass => s.Only Value.HandleFree) _ _ h fun s hs p _ => ?_
  unfold Pass.invalidate
  split
  · exact hs
  · refine ⟨fun q v hv => ?_, hs.spilled⟩
    rw [ExtTreeMap.getElem?_erase, Option.ite_none_left_eq_some] at hv
    exact hs.results q v hv.2

/-- A calculation without generations in between reports what it would report if its functions started none. -/
theorem run_calm (hpure : c.registry.Pure) (hgeneration : c.generation = T.generation) (hhosts : T.Hosts host host')
    (hlatest : host.generations.latest = T.generation) (hrun : (c.run host cursor).1 = .completed report) :
    ((c.calm T.generation').run host' cursor).1 = .completed report := by
  obtain ⟨hfirst, hsecond, rfl⟩ := report_of_completed hrun
  have hlast := current_of_completed hrun
  have hnot : ∀ {i : Interpreter}, c.isCurrent i = true → ¬ T.generation < i.session.host.generations.latest := by
    intro i hi hlt
    rw [isCurrent, Generations.isCurrent, hgeneration, beq_iff_eq] at hi
    exact hlt.ne hi
  have hcurrent : ∀ {i j : Interpreter}, T.Interpreters i j → (c.calm T.generation').isCurrent j = true := by
    intro i j hij
    rw [isCurrent, Generations.isCurrent, hij.sessions.hosts.latest]
    exact beq_self_eq_true _
  have hstart : T.Interpreters (c.interpreter host cursor) ((c.calm T.generation').interpreter host' cursor) := by
    refine ⟨⟨{ cursor }, by rw [interpreter, hgeneration]; rfl, rfl⟩, ?_, rfl⟩
    exact ⟨hhosts, rfl, only_start c, rfl, fun k => by simp [interpreter], .nil, rfl⟩
  have hfirsts : T.Interpreters (c.firstRound host cursor) ((c.calm T.generation').firstRound host' cursor) :=
    (abreast_evaluateCells hpure hgeneration hstart hlatest.ge c.plan.cells).resolve_left (hnot hfirst)
  have hseconds : T.Interpreters (c.secondRound host cursor) ((c.calm T.generation').secondRound host' cursor) := by
    have hopened := hfirsts.modifyPass fun s hs =>
      only_foldl_invalidate hs (c.spillReaders (c.firstRound host cursor).session.pass)
    have hle := hlatest.ge.trans (c.later_firstRound host cursor).latest
    have hcells := (abreast_evaluateCells hpure hgeneration hopened hle
      (c.spillReaders (c.firstRound host cursor).session.pass)).resolve_left (hnot hsecond)
    rw [secondRound, secondRound]
    rw [hfirsts.sessions.pass]
    exact hcells
  obtain ⟨hvalues, hothers⟩ := (abreast_evaluateOthers hpure hseconds
    (hlatest.ge.trans (c.later_secondRound host cursor).latest)).resolve_left (hnot hlast)
  rw [run_eq, hcurrent hfirsts, hcurrent hseconds]
  dsimp only
  rw [hcurrent hothers, hvalues, hothers.sessions.pass, hfirsts.sessions.pass]
  rfl

end Calculation

namespace Twin

lemma hosts_start {h h' : Host} (hb : h.Bounded) (hb' : h'.Bounded) (hmoment : h'.moment = h.moment) (generation : Nat) :
    Hosts ⟨h.nextHandle, h'.nextHandle, generation, h'.generations.latest⟩ h h' := by
  have hunknown : ∀ {h : Host}, h.Bounded → ∀ i, h.settled[h.nextHandle + i]? = none ∧ h.waiting[h.nextHandle + i]? = none := by
    intro h hb i
    have hnot : ¬ h.Known (h.nextHandle + i) := fun hk => (Nat.le_add_right _ i).not_gt (hb _ hk)
    exact ⟨ExtTreeMap.getElem?_eq_none (hnot ∘ .inr), ExtTreeMap.getElem?_eq_none (hnot ∘ .inl)⟩
  refine ⟨⟨0, rfl, rfl⟩, fun i => ?_, fun i => ?_, hmoment, rfl⟩
  · rw [(hunknown hb i).1, (hunknown hb' i).1]
    exact .none
  · rw [(hunknown hb i).2, (hunknown hb' i).2]
    exact .none

end Twin

namespace Engine

open Relation

variable {e e' : Engine} {waits : Bool} {r : Report}

/-- The engine with functions that start no generations. -/
def calm (e : Engine) : Engine := { e with registry := e.registry.calm }

/-- What may come before the next calculation that runs undisturbed: a generation that is started from outside, a formula that
is not in the workbooks, or a calculation that is superseded too. -/
inductive Overtaken : Engine → Engine → Prop
  | invalidate (e : Engine) : Overtaken e e.invalidate
  | evaluate (e : Engine) (text : String) (p : Place) (waits : Bool) : Overtaken e (e.evaluate text p waits).2
  | calculate {e : Engine} {waits : Bool} {g : Nat} (h : (e.calculate waits).1 = .superseded g) :
      Overtaken e (e.calculate waits).2

lemma calculate_run (e : Engine) (waits : Bool) :
    (e.calculate waits).1 = ((e.calculationWith waits).run e.host.issueGeneration e.cursor).1 ∧
      (e.calculate waits).2.host = ((e.calculationWith waits).run e.host.issueGeneration e.cursor).2 := by
  obtain ⟨r, host, hrun, hcalculate⟩ | ⟨g, host, hrun, hcalculate⟩ := e.calculate_cases waits
  · rw [hrun, hcalculate]
    exact ⟨rfl, congrArg Engine.host (commit_host host)⟩
  · rw [hrun, hcalculate]
    exact ⟨rfl, rfl⟩

lemma later_calculate (e : Engine) (waits : Bool) : e.host.Later (e.calculate waits).2.host := by
  rw [(e.calculate_run waits).2]
  exact e.host.later_issueGeneration.trans (Calculation.later_run _ _ _)

lemma later_evaluate (e : Engine) (text : String) (p : Place) (waits : Bool) :
    e.host.Later (e.evaluate text p waits).2.host := by
  unfold evaluate
  extract_lets snapshot node i
  rcases hrun : i.evaluate snapshot node waits with ⟨v, j⟩
  have hlater : i.session.host.Later j.session.host := Interpreter.later_evaluate hrun
  exact hlater

lemma later_next {allowed : Engine → Place → Cell → Prop} (h : Next allowed e e') : e.host.Later e'.host := by
  cases h with
  | setCell _ hset =>
    unfold setCell at hset
    split at hset
    · cases hset
    · obtain rfl := Except.ok.inj hset
      exact .refl _
  | invalidate => exact e.host.later_issueGeneration
  | evaluate text p waits => exact e.later_evaluate text p waits
  | calculate waits => exact e.later_calculate waits
  | _ => exact .refl _

/-- In every engine there is only work behind handles that its host gave out. -/
theorem bounded_of_history {allowed : Engine → Place → Cell → Prop} {d : Dataset} (hhost : e.host = {})
    (hhistory : ReflTransGen (Next allowed) (e.load d) e') : e'.host.Bounded := by
  induction hhistory with
  | refl =>
    intro handle hk
    rw [show (e.load d).host = {} from hhost, Host.Known] at hk
    exact hk.elim (fun h => absurd h ExtTreeMap.not_mem_empty) fun h => absurd h ExtTreeMap.not_mem_empty
  | tail _ hnext ih => exact (later_next hnext).bounded ih

/-- A calculation that is superseded leaves nothing but its traces in the host. -/
lemma eq_of_superseded {g : Nat} (h : (e.calculate waits).1 = .superseded g) :
    (e.calculate waits).2 = { e with host := (e.calculate waits).2.host } := by
  rcases e.calculate_cases waits with ⟨r, host, -, hcompleted⟩ | ⟨n, host, -, hsuperseded⟩
  · rw [hcompleted] at h
    cases h
  · rw [hsuperseded]

lemma Overtaken.step (h : Overtaken e e') : e' = { e with host := e'.host } ∧ e.host.Later e'.host := by
  cases h with
  | invalidate => exact ⟨rfl, e.host.later_issueGeneration⟩
  | evaluate text p waits => exact ⟨rfl, e.later_evaluate text p waits⟩
  | calculate h => exact ⟨eq_of_superseded h, e.later_calculate _⟩

lemma Overtaken.run (h : ReflTransGen Overtaken e e') : e' = { e with host := e'.host } ∧ e.host.Later e'.host := by
  induction h with
  | refl => exact ⟨rfl, .refl _⟩
  | tail _ hstep ih =>
    obtain ⟨hsame, hlater⟩ := hstep.step
    rw [ih.1] at hsame
    exact ⟨hsame, ih.2.trans hlater⟩

/-- What an engine reports when it is not disturbed does not depend on what its host has been through. -/
lemma calculate_calm {host : Host} (hpure : e.registry.Pure) (hb : e.host.Bounded) (hlater : e.host.Later host)
    (hrun : (({ e with host } : Engine).calculate waits).1 = .completed r) : (e.calm.calculate waits).1 = .completed r := by
  have hbounded : host.issueGeneration.Bounded := hlater.bounded hb
  have hbounded' : e.host.issueGeneration.Bounded := hb
  have hhosts := Twin.hosts_start hbounded hbounded' hlater.moment.symm host.issueGeneration.generations.latest
  have hgeneration : (({ e with host } : Engine).calculationWith waits).generation =
    host.issueGeneration.generations.latest := rfl
  have hcalm : (e.calm.calculate waits).1 =
      (((({ e with host } : Engine).calculationWith waits).calm e.host.issueGeneration.generations.latest).run
        e.host.issueGeneration e.cursor).1 := (calculate_run e.calm waits).1
  have hrun : ((({ e with host } : Engine).calculationWith waits).run host.issueGeneration e.cursor).1 = .completed r :=
    (calculate_run _ waits).1.symm.trans hrun
  have hreport := Calculation.run_calm (c := ({ e with host } : Engine).calculationWith waits) hpure hgeneration hhosts rfl hrun
  rw [hcalm]
  exact hreport

/-- A calculation is superseded if and only if a generation is started while it runs. Then it leaves no trace but in the host,
and the next calculation that runs undisturbed reports what it would have reported, provided that functions are pure apart from
the generations that they start. One that is completed leaves nothing that counts as changed. -/
theorem calculate_superseded (e : Engine) (waits : Bool) :
    ((∃ g, (e.calculate waits).1 = .superseded g) ↔
      e.host.generations.latest + 1 < (e.calculate waits).2.host.generations.latest) ∧
    (∀ g, (e.calculate waits).1 = .superseded g →
      (e.calculate waits).2 = { e with host := (e.calculate waits).2.host } ∧
      (e.registry.Pure → e.host.Bounded → ∀ e' r, ReflTransGen Overtaken (e.calculate waits).2 e' →
        (e'.calculate waits).1 = .completed r → (e.calm.calculate waits).1 = .completed r)) ∧
    ∀ r, (e.calculate waits).1 = .completed r →
      (e.calculate waits).2.config.changes = { excluded := e.config.changes.excluded } ∧
      (e.calculate waits).2.config.dirtyBooks = [] := by
  refine ⟨?_, fun g hg => ?_, fun r hr => ?_⟩
  · have hle : e.host.generations.latest + 1 ≤ (e.calculate waits).2.host.generations.latest := by
      rw [(e.calculate_run waits).2]
      exact (Calculation.later_run _ e.host.issueGeneration e.cursor).latest
    rw [(e.calculate_run waits).1, Calculation.run_superseded, ← (e.calculate_run waits).2]
    refine ⟨Calculation.lt_of_stale hle, fun hlt => ?_⟩
    rw [Generations.isCurrent, beq_eq_false_iff_ne]
    exact hlt.ne
  · have hsame := eq_of_superseded hg
    refine ⟨hsame, fun hpure hb e' r hovertaken hrun => ?_⟩
    obtain ⟨heq, hlater⟩ := Overtaken.run hovertaken
    rw [heq, hsame] at hrun
    exact calculate_calm hpure hb ((e.later_calculate waits).trans hlater) hrun
  · rcases e.calculate_cases waits with ⟨r', host, -, hcompleted⟩ | ⟨n, host, -, hsuperseded⟩
    · rw [hcompleted, config_commit]
      exact ⟨rfl, rfl⟩
    · rw [hsuperseded] at hr
      cases hr

/-- A function that starts a generation now and then. -/
def restlessFunction : FunctionDef where
  name := "F"
  minArgs := 0
  maxArgs := some 0
  run _ site := if site.draw % 2 = 1 then .supersede (.answer (.boolean true)) else .answer (.boolean true)

def restlessEngine : Engine where
  registry := ⟨(∅ : ExtTreeMap String FunctionDef).insert "F" restlessFunction⟩
  config := { changes := { force := true } }
  index := { cells := (∅ : PlaceMap Dependency.Entry).insert Interpreter.lateCell Interpreter.lateEntry }

lemma pure_restlessEngine : restlessEngine.registry.Pure := by
  intro name f hf
  have hf : ((∅ : ExtTreeMap String FunctionDef).insert "F" restlessFunction)[Text.upper name]? = some f := hf
  rw [ExtTreeMap.getElem?_insert] at hf
  split at hf
  · obtain rfl := Option.some.inj hf
    have hcalm : ∀ args site, (restlessFunction.run args site).calm = .answer (.boolean true) := by
      intro args site
      unfold restlessFunction
      dsimp only
      split <;> rfl
    refine ⟨fun args site _ => ?_, fun args site draw _ => by rw [hcalm, hcalm]⟩
    unfold restlessFunction
    dsimp only
    split <;> exact .flat trivial
  · cases hf

lemma plan_restlessEngine : Plan.make restlessEngine.index [] { force := true, volatile := true } =
    { cells := [Interpreter.lateCell] } := by
  decide +kernel

lemma calculationWith_restlessEngine (host : Host) : ({ restlessEngine with host } : Engine).calculationWith false =
    ⟨restlessEngine.registry, {}, restlessEngine.config, restlessEngine.index, false, host.issueGeneration.generations.latest,
      { cells := [Interpreter.lateCell] }⟩ := by
  rw [← plan_restlessEngine]
  rfl

theorem calculate_superseded_restless : ∃ r, (restlessEngine.calculate false).1 = .superseded 1 ∧
    ((restlessEngine.calculate false).2.calculate false).1 = .completed r ∧
    (restlessEngine.calm.calculate false).1 = .completed r := by
  have hstart : restlessEngine.calculationWith false = _ := calculationWith_restlessEngine {}
  have hsuperseded : (restlessEngine.calculate false).1 = .superseded 1 := by
    rw [(calculate_run _ false).1, hstart]
    rfl
  obtain ⟨hsame, hnext⟩ := (calculate_superseded restlessEngine false).2.1 1 hsuperseded
  have hcompleted : ∃ r, ((restlessEngine.calculate false).2.calculate false).1 = .completed r := by
    rw [hsame, (calculate_run _ false).1, calculationWith_restlessEngine, (restlessEngine.calculate_run false).2, hstart]
    exact ⟨_, rfl⟩
  obtain ⟨r, hr⟩ := hcompleted
  have hbounded : restlessEngine.host.Bounded := fun handle hk => by simp [Host.Known, restlessEngine] at hk
  exact ⟨r, hsuperseded, hr, hnext pure_restlessEngine hbounded _ r .refl hr⟩

end Engine

end Spreadsheet
