import Spreadsheet.Proofs.Engine.Delayed
import Spreadsheet.Proofs.Engine.Readback
import Spreadsheet.Proofs.Engine.Still

/-! Functions that break off. The cell whose formula calls one ends as `#CALC!`, the interpreter goes on as if nothing
had happened, and cells that read nothing of it, over any number of other cells, end with the values that they would have
if the function gave some value instead. -/

namespace Spreadsheet

open Std Dependency Formula Relation

/-! Functions that give a value where others break off. -/

/-- The task as it would be if it gave a value wherever it breaks off. -/
def Task.mend (v : Value) : Task → Task
  | answer w => answer w
  | fault => answer v
  | later work => later (work.mend v)
  | supersede next => supersede (next.mend v)

lemma Task.gives_mend {v : Value} {work : Task} {n : Nat} (h : (work.mend v).Delays n) :
    work.Gives True (work.mend v).outcome n := by
  induction n generalizing work with
  | zero =>
    cases work with
    | answer => rfl
    | fault => trivial
    | _ => exact h.elim
  | succ n ih =>
    cases work with
    | answer => rfl
    | fault => trivial
    | later work =>
      have hlater : (work.mend v).Delays n := h
      exact ih hlater
    | supersede next => exact h.elim

def FunctionDef.mend (f : FunctionDef) (v : Value) : FunctionDef :=
  { f with run := fun args site => (f.run args site).mend v }

namespace Registry

variable {r : Registry} {v : Value} {bound : Nat}

/-- The registry in which every function gives a value wherever it breaks off. -/
def mend (r : Registry) (v : Value) : Registry := ⟨r.functions.map fun _ f => f.mend v⟩

lemma find?_mend (r : Registry) (v : Value) (name : String) : (r.mend v).find? name = (r.find? name).map (·.mend v) :=
  ExtTreeMap.getElem?_map

lemma isVolatile_mend (r : Registry) (v : Value) (name : String) : (r.mend v).isVolatile name = r.isVolatile name := by
  rw [isVolatile, isVolatile, find?_mend]
  cases r.find? name <;> rfl

lemma Delays.amountsTo_mend (h : (r.mend v).Delays bound) : r.AmountsTo (r.mend v).resolved True bound := by
  intro name
  have hname := h name
  rw [find?_resolved, find?_mend] at *
  cases hf : r.find? name with
  | none => exact .none
  | some f =>
    refine .some ⟨rfl, fun _ => rfl, fun hg args site => ?_⟩
    have hanswer : ((f.run args site).mend v).outcome = (f.mend v).resolved.answer args site.place :=
      Task.answer.inj (hg.run_eq args site)
    rw [← hanswer]
    exact Task.gives_mend (hname (f.mend v) (by rw [hf]; rfl) args site)

end Registry

/-! What is left of an evaluation that broke off. -/

namespace Interpreter

variable {i j : Interpreter} {cursor : Cursor} {waits : Bool} {origin : Origin} {act : Eval Value}

/-- The interpreter stands at a cell and evaluates nothing. -/
structure Home (i : Interpreter) (cursor : Cursor) : Prop extends i.Idle where
  cursor : i.scope.cursor = cursor
  origin : i.scope.origin = {}
  waits : i.scope.waits = false
  interrupted : i.interrupted = none

/-- The interpreter also remembers nothing of what it has evaluated. -/
structure Clean (i : Interpreter) (cursor : Cursor) : Prop extends i.Home cursor where
  answers : i.session.answers = ∅
  awaited : i.session.awaited = []

lemma run_none (h : i.run waits origin act = (none, j)) : j.interrupted = some i.scope.cursor := by
  unfold run at h
  extract_lets scope whole at h
  split at h
  · cases h
  · obtain rfl := (Prod.mk.inj h).2
    rfl

lemma run_some {v : Value} (h : i.run waits origin act = (some v, j)) : j.scope = i.scope ∧ j.interrupted = none := by
  unfold run at h
  extract_lets scope whole at h
  split at h
  · obtain rfl := (Prod.mk.inj h).2
    exact ⟨rfl, rfl⟩
  · cases h

lemma exists_run_of_evaluateCell {snapshot : Snapshot} {p : Place} {o : Option Value}
    (h : i.evaluateCell snapshot p waits = .ok (o, j)) :
    ∃ act k, i.run waits {} act = (o, k) ∧ j.scope = k.scope ∧ j.interrupted = k.interrupted := by
  unfold evaluateCell at h
  split at h
  · cases h
  · split at h
    · cases h
    · have h := Except.ok.inj h
      split at h
      · rename_i k hrun
        obtain ⟨rfl, rfl⟩ := Prod.mk.inj h
        exact ⟨_, k, hrun, rfl, rfl⟩
      · rename_i v k hrun
        split at h <;> obtain ⟨rfl, rfl⟩ := Prod.mk.inj h <;> exact ⟨_, k, hrun, rfl, rfl⟩

lemma clean_reset (h : i.interrupted = some cursor) : i.reset.Clean cursor where
  cells := rfl
  names := rfl
  cursor := by rw [reset, h, Option.getD_some]
  origin := rfl
  waits := rfl
  interrupted := rfl
  answers := rfl
  awaited := rfl

lemma Clean.recordResult (h : i.Clean cursor) (snapshot : Snapshot) (p : Place) (v : Value) :
    (i.recordResult snapshot p v).Clean cursor :=
  ⟨⟨⟨h.cells, h.names⟩, h.cursor, h.origin, h.waits, h.interrupted⟩, h.answers, h.awaited⟩

end Interpreter

namespace Calculation

open Eval Evaluator Interpreter

variable {c : Calculation} {i : Interpreter} {p q : Place} {l : List Place} {cursor : Cursor} {host : Host}
  {d : Changes}

/-- Whatever a formula was doing when it broke off, the cell ends as `#CALC!`, and the interpreter is back where it was
and has forgotten all of it. -/
theorem clean_of_breaksOff (hb : c.breaksOff i p = true) : (c.evaluateCell i p).Clean i.scope.cursor ∧
    (c.evaluateCell i p).session.pass.results[p]? = some (.error .calculation) ∧
    p ∉ (c.evaluateCell i p).session.pass.dirty := by
  unfold breaksOff at hb
  unfold evaluateCell
  split at hb
  · rename_i j hj
    obtain ⟨act, k, hrun, -, hinterrupted⟩ := exists_run_of_evaluateCell hj
    have hstore : j.reset.session.pass.store c.snapshot.books c.snapshot.formulas p (.error .calculation) =
        (j.reset.session.pass.withdraw p).record p (.error .calculation) := Pass.store_of_not_array nofun
    rw [hj]
    refine ⟨(clean_reset (hinterrupted.trans (run_none hrun))).recordResult _ _ _, ?_, ?_⟩
    · change (Pass.store _ _ _ _ _).results[p]? = _
      rw [hstore, Pass.results_record, if_pos rfl]
    · exact fun hp => (Pass.mem_dirty_store.1 hp).1 rfl
  · cases hb

lemma home_evaluateCell (h : i.Home cursor) (p : Place) : (c.evaluateCell i p).Home cursor := by
  by_cases hb : c.breaksOff i p = true
  · exact h.cursor ▸ (clean_of_breaksOff hb).1.toHome
  unfold breaksOff at hb
  unfold evaluateCell
  split
  · rename_i v j hj
    obtain ⟨act, k, hrun, hscope, hinterrupted⟩ := exists_run_of_evaluateCell hj
    have hscope := hscope.trans (run_some hrun).1
    exact ⟨⟨hscope ▸ h.cells, hscope ▸ h.names⟩, hscope ▸ h.cursor, hscope ▸ h.origin, hscope ▸ h.waits,
      hinterrupted.trans (run_some hrun).2⟩
  · rename_i j hj
    rw [hj] at hb
    exact absurd rfl hb
  · refine ⟨⟨rfl, rfl⟩, ?_, rfl, rfl, rfl⟩
    change i.interrupted.getD i.scope.cursor = cursor
    rw [h.interrupted, Option.getD_none, h.cursor]

theorem home_evaluateCells (h : i.Home cursor) (l : List Place) : (c.evaluateCells i l).Home cursor := by
  induction l generalizing i with
  | nil => exact h
  | cons p l ih =>
    rw [evaluateCells]
    split
    · exact ih (home_evaluateCell h p)
    · exact home_evaluateCell h p

/-! Which cells break off. -/

/-- The cells among those of a list that break off when they are calculated in order. -/
def broken (c : Calculation) (i : Interpreter) : List Place → List Place
  | [] => []
  | p :: rest =>
    let later := if c.isCurrent (c.evaluateCell i p) then c.broken (c.evaluateCell i p) rest else []
    if c.breaksOff i p then p :: later else later

lemma mem_broken_cons : q ∈ c.broken i (p :: l) ↔ q = p ∧ c.breaksOff i p = true ∨
    c.isCurrent (c.evaluateCell i p) = true ∧ q ∈ c.broken (c.evaluateCell i p) l := by
  simp only [broken]
  split <;> split <;> simp_all

lemma broken_subset : c.broken i l ⊆ l := by
  induction l generalizing i with
  | nil => exact List.Subset.refl _
  | cons p l ih =>
    intro q hq
    rcases mem_broken_cons.1 hq with ⟨rfl, -⟩ | ⟨-, hq⟩
    · exact List.mem_cons_self
    · exact List.mem_cons_of_mem _ (ih hq)

end Calculation

/-- The cell has ended as `#CALC!`, and no array is anywhere. -/
structure Pass.Failed (s : Pass) (p : Place) : Prop extends s.Still where
  result : s.results[p]? = some (.error .calculation)
  clean : p ∉ s.dirty

lemma Pass.Failed.record {s : Pass} {p q : Place} (h : s.Failed p) (hq : p ≠ q) (v : Value) : (s.record q v).Failed p where
  toStill := h.toStill.record q v
  result := by rw [results_record, if_neg hq, h.result]
  clean hp := h.clean (by simpa [Pass.record, hq.symm] using hp)

namespace Calculation

open Eval Evaluator Interpreter

variable {c : Calculation} {i : Interpreter} {p q : Place} {l : List Place} {cursor : Cursor} {host : Host}
  {d : Changes} {e : Entry}

lemma admits_still (c : Calculation) : Admits c.snapshot Pass.Still fun _ _ => True :=
  admits_of_store fun t p _ v _ ht => by
    rw [ht.store_eq]
    exact ht.record p v

lemma admits_failed (c : Calculation) (p : Place) : Admits c.snapshot (·.Failed p) fun _ _ => True where
  value _ _ _ _ _ _ _ hvalue := hvalue
  store q _ _ hdue t v ht _ := by
    obtain ⟨u, hu, hq⟩ := hdue
    rw [ht.store_eq]
    exact ht.record (fun heq => hu.clean (heq ▸ hq)) v

lemma due_still (p : Place) : Due Pass.Still p :=
  ⟨{ dirty := (∅ : PlaceSet).insert p, spillArrays := false }, ⟨rfl, rfl, rfl, rfl⟩, by simp⟩

lemma due_failed (hq : q ≠ p) : Due (·.Failed p) q := by
  let results : PlaceMap Value := (∅ : PlaceMap Value).insert p (.error .calculation)
  refine ⟨{ dirty := (∅ : PlaceSet).insert q, results, spillArrays := false }, ⟨⟨rfl, rfl, rfl, rfl⟩, ?_, ?_⟩, by simp⟩
  · exact ExtTreeMap.getElem?_insert_self
  · simpa using hq

/-- What breaks off ends as `#CALC!`, since no cell is calculated twice where no array is anywhere. -/
lemma failed_of_mem_broken (hl : ∀ p ∈ l, ∃ e, c.index.cell? p = some e) (hnodup : l.Nodup) (hidle : i.Idle)
    (hs : i.session.pass.Still) (hp : p ∈ c.broken i l) : (c.evaluateCells i l).session.pass.Failed p := by
  induction l generalizing i with
  | nil => exact nomatch hp
  | cons q l ih =>
    obtain ⟨⟨e, he⟩, hentries⟩ := List.forall_mem_cons.1 hl
    obtain ⟨hmem, hnodup⟩ := List.nodup_cons.1 hnodup
    obtain ⟨hstill, hnext, -⟩ := evaluateCell_spec c.admits_still (lenient_true _ q) he (due_still q) hidle hs
    rw [evaluateCells]
    rcases mem_broken_cons.1 hp with ⟨rfl, hb⟩ | ⟨hcurrent, hp⟩
    · obtain ⟨-, hresult, hclean⟩ := clean_of_breaksOff hb
      have hfailed : (c.evaluateCell i p).session.pass.Failed p := ⟨hstill, hresult, hclean⟩
      split
      · refine (evaluateCells_spec (J := (·.Failed p)) (fun x hx j hj hJ => ?_) hnext hfailed).1
        obtain ⟨f, hf⟩ := hentries x hx
        have hne : x ≠ p := fun heq => hmem (heq ▸ hx)
        obtain ⟨hfailed, hidle, -⟩ := evaluateCell_spec (c.admits_failed p) (lenient_true _ x) hf (due_failed hne) hj hJ
        exact ⟨hfailed, hidle⟩
      · exact hfailed
    · rw [if_pos hcurrent]
      exact ih hentries hnodup hnext hstill hp

end Calculation

namespace Engine

open Calculation

variable {e : Engine} {p : Place} {r : Report} {waits : Bool}

/-- The cells that break off in the calculation of an engine. -/
def broken (e : Engine) (waits : Bool) : List Place :=
  (e.calculationWith waits).broken ((e.calculationWith waits).interpreter e.host.issueGeneration e.cursor)
    (e.calculationWith waits).plan.cells

/-- Where no array spills, every cell that breaks off is reported as `#CALC!`, whatever formulas there are. -/
theorem values_of_mem_broken (hs : e.options.spillArrays = false) (ha : e.config.arrayRanges = ∅)
    (hrun : (e.calculate waits).1 = .completed r) (hp : p ∈ e.broken waits) :
    r.values[p]? = some (.error .calculation) := by
  obtain ⟨e', hrun⟩ : ∃ e', e.calculate waits = (.completed r, e') := ⟨_, Prod.ext hrun rfl⟩
  obtain ⟨host, hcompleted, -⟩ := run_of_calculate hrun
  let c := e.calculationWith waits
  have hplan : c.plan = Plan.make c.index c.config.features e.pending := rfl
  have hcells : p ∈ c.plan.cells := broken_subset hp
  have hfailed : (c.firstRound e.host.issueGeneration e.cursor).session.pass.Failed p :=
    failed_of_mem_broken (fun _ => Plan.exists_entry) Plan.nodup_cells ⟨rfl, rfl⟩ (still_start (c := c) hs ha) hp
  have hagain : c.spillReaders (c.firstRound e.host.issueGeneration e.cursor).session.pass = [] :=
    spillReaders_still hfailed.toStill
  have hend : (c.endPass e.host.issueGeneration e.cursor).Failed p := by
    refine endPass_of_reopened (c.admits_failed p) (lenient_true _) hplan rfl ?_
    rw [hagain]
    exact hfailed
  obtain ⟨-, -, rfl⟩ := report_of_completed (c := c) hcompleted
  exact report_values.2 ⟨Or.inr (mem_calculated.2 (Or.inl hcells)), _, hend.result, rfl⟩

end Engine

/-! What does not break off. -/

namespace Calculation

variable {c : Calculation} {i : Interpreter} {p : Place} {rest done broken broken' : List Place} {cursor : Cursor}
  {host : Host} {d : Changes} {r : Registry} {K : Session → Prop} {s t : Pass} {bound : Nat} {stops : Prop}

/-- An interpreter with the last cells of a plan still to come, of which it is known which ones will break off. -/
structure Midway (c : Calculation) (r : Registry) (K : Session → Prop) (broken rest : List Place) (i : Interpreter) :
    Prop where
  cells : i.scope.cells = ∅
  generation : i.scope.generation = c.generation
  current : c.isCurrent i = true
  kept : K i.session
  breaks : ∀ p ∈ rest, p ∈ broken ↔ p ∈ c.broken i rest
  halfway : Halfway (c.direct r) broken rest i.session.pass
  awaits : Awaits (c.direct r) rest i.session.pass

lemma Midway.record (h : c.Midway r K broken (p :: rest) i) (hc : (c.direct r).Plain d)
    (hcells : c.plan.cells = done ++ p :: rest) {e : Entry} (he : c.index.cell? p = some e) {scope : Scope} {u : Session}
    {v : Value} (hevaluate : c.evaluateCell i p = ⟨scope, u, none⟩) (hscope : scope.cells = ∅)
    (hgeneration : scope.generation = c.generation) (hg : u.host.generations = i.session.host.generations) (hK : K u)
    (hpass : u.pass = i.session.pass.store c.config.books c.index p v) (hflat : v.IsFlat)
    (hv : v = if p ∈ broken then .error .calculation
      else (i.session.pass.reading c.config.books).value r p e.node) :
    c.Midway r K broken rest (c.evaluateCell i p) := by
  have hordered : c.index.Ordered (done ++ p :: rest) := hcells ▸ hc.ordered_cells
  have hcurrent : c.isCurrent ⟨scope, u, none⟩ = true := by
    rw [isCurrent, hg]
    exact h.current
  have hbroken : ∀ q ∈ rest, q ∈ broken ↔ q ∈ c.broken ⟨scope, u, none⟩ rest := by
    intro q hq
    have hne : q ≠ p := fun heq => hordered.behind.not_mem (heq ▸ hq)
    rw [h.breaks q (List.mem_cons_of_mem _ hq), mem_broken_cons, hevaluate]
    simp [hne, hcurrent]
  have hrecord : u.pass = i.session.pass.record p v := hpass.trans (h.halfway.still.store_eq p v)
  rw [hevaluate]
  refine ⟨hscope, hgeneration, hcurrent, hK, hbroken, ?_, ?_⟩
  · rw [hrecord]
    exact h.halfway.record hc hcells he hv
  · rw [hpass]
    exact h.awaits.store hordered.behind hflat

lemma Follows.midway_step (hf : c.Follows True r K) (hc : (c.direct r).Plain d)
    (hcells : c.plan.cells = done ++ p :: rest) (h : c.Midway r K broken (p :: rest) i) :
    c.Midway r K broken rest (c.evaluateCell i p) := by
  have hordered : c.index.Ordered (p :: rest) := Index.Ordered.behind (hcells ▸ hc.ordered_cells)
  obtain ⟨e, he⟩ := hordered.entry p List.mem_cons_self
  have hplain : e.node.Plain r := (hc.index p e he).node
  have hmem := h.breaks p List.mem_cons_self
  rw [mem_broken_cons] at hmem
  rcases hf.step i p e h.cells h.generation h.current h.kept he hplain (h.awaits.results p List.mem_cons_self)
      h.awaits.flat fun t ht q hq => h.awaits.quiet hc hordered he ht hq with ⟨u, hu⟩ | ⟨-, u, hu⟩
  · have hnot : p ∉ broken := by
      rw [hmem]
      rintro (⟨-, hb⟩ | ⟨-, hp⟩)
      · rw [hu.breaksOff] at hb
        cases hb
      · exact hordered.not_mem (broken_subset hp)
    refine h.record hc hcells he hu.evaluateCell h.cells h.generation hu.generations hu.kept ?_
      (Reading.value_flat hplain) (if_neg hnot).symm
    rw [hu.pass, settle_eq (c := c.direct r) he]
    rfl
  · exact h.record hc hcells he hu.evaluateCell rfl h.generation hu.generations hu.kept hu.pass trivial
      (if_pos (hmem.2 (Or.inl ⟨rfl, hu.breaksOff⟩))).symm

lemma Follows.midway_run (hf : c.Follows True r K) (hc : (c.direct r).Plain d) (hcells : c.plan.cells = done ++ rest)
    (h : c.Midway r K broken rest i) : c.Midway r K broken [] (c.evaluateCells i rest) := by
  induction rest generalizing i done with
  | nil => exact h
  | cons p rest ih =>
    have hstep := hf.midway_step hc hcells h
    rw [Calculation.evaluateCells, if_pos hstep.current]
    exact ih (show c.plan.cells = (done ++ [p]) ++ rest by simp [hcells]) hstep

theorem Follows.run_broken (hf : c.Follows True r K) (hc : (c.direct r).Still d)
    (hg : host.generations.latest = c.generation) (cursor : Cursor) (hK : K (c.interpreter host cursor).session) :
    ∃ (s : Pass) (host' : Host),
      Halfway (c.direct r) (c.broken (c.interpreter host cursor) c.plan.cells) [] s ∧
      c.run host cursor = (.completed (c.report s [] ∅), host') := by
  have hstart : c.Midway r K (c.broken (c.interpreter host cursor) c.plan.cells) c.plan.cells
      (c.interpreter host cursor) := by
    refine ⟨rfl, rfl, ?_, hK, fun _ _ => Iff.rfl, halfway_start hc _, awaits_start hc.toPlain⟩
    simp [isCurrent, interpreter, Generations.isCurrent, hg]
  have hend : c.Midway r K _ [] (c.firstRound host cursor) :=
    hf.midway_run hc.toPlain (List.nil_append _).symm hstart
  have hagain : c.spillReaders (c.firstRound host cursor).session.pass = [] := spillReaders_still hend.halfway.still
  have hsecond : c.secondRound host cursor = c.firstRound host cursor := by
    rw [Calculation.secondRound, hagain]
    rfl
  have hothers : c.plan.others = [] := hc.others
  refine ⟨(c.firstRound host cursor).session.pass, (c.firstRound host cursor).session.host, hend.halfway, ?_⟩
  simp only [run_eq, hsecond, hend.current, hagain, evaluateOthers, hothers, List.foldl_nil, Bool.not_true,
    Bool.false_eq_true, if_false]

/-- A cell reads none of the given ones, over any number of other cells, and is none of them itself. -/
def Spared (c : Calculation) (broken : List Place) (p : Place) : Prop :=
  ∀ q ∈ broken, ¬ ReflTransGen c.index.Reads p q

lemma Spared.read (h : c.Spared broken p) {q : Place} (hr : c.index.Reads p q) : c.Spared broken q :=
  fun x hx hq => h x hx (.head hr hq)

lemma Halfway.cell_congr (hs : Halfway c broken [] s) (ht : Halfway c broken' [] t)
    (hp : p ∈ c.plan.cells → s.results[p]? = t.results[p]?) :
    (s.reading c.config.books).cell p = (t.reading c.config.books).cell p := by
  have hcycles : p ∈ s.cycles ↔ p ∈ t.cycles := (hs.cycles p).trans (ht.cycles p).symm
  rw [hs.still.cell_reading, ht.still.cell_reading]
  simp only [ExtTreeSet.contains_iff_mem, hcycles]
  by_cases hcycle : p ∈ t.cycles
  · rw [if_pos hcycle, if_pos hcycle]
  · have hplan : p ∉ c.plan.cycles := fun h => hcycle ((ht.cycles p).2 h)
    have hresults : s.results[p]? = t.results[p]? := by
      by_cases hmem : p ∈ c.plan.cells
      · exact hp hmem
      · rw [hs.waiting p hplan (Or.inl hmem), ht.waiting p hplan (Or.inl hmem)]
    rw [if_neg hcycle, if_neg hcycle, hresults]

lemma Halfway.results_congr (hs : Halfway c broken [] s) (ht : Halfway c broken' [] t) (hc : c.Plain d)
    (hp : p ∈ c.plan.cells) (hspared : c.Spared broken p) (hspared' : c.Spared broken' p) :
    s.results[p]? = t.results[p]? := by
  have hprefix : ∀ done, done <+: c.plan.cells → ∀ q ∈ done, c.Spared broken q → c.Spared broken' q →
      s.results[q]? = t.results[q]? := by
    intro done
    induction done using List.reverseRecOn with
    | nil => simp
    | append_singleton done x ih =>
      rintro ⟨rest, hcells⟩ q hq hspared hspared'
      have ih := ih ⟨x :: rest, by rw [← hcells]; simp⟩
      rcases List.mem_append.1 hq with hq | hq
      · exact ih q hq hspared hspared'
      obtain rfl := List.mem_singleton.1 hq
      have hsplit : c.plan.cells = done ++ q :: rest := by rw [← hcells]; simp
      have hordered : c.index.Ordered (q :: rest) := (hsplit ▸ hc.ordered_cells).behind
      have hmem : q ∈ c.plan.cells := by simp [hsplit]
      obtain ⟨e, he, hresult⟩ := hs.done q hmem List.not_mem_nil
      obtain ⟨f, hf, hresult'⟩ := ht.done q hmem List.not_mem_nil
      obtain rfl := Option.some.inj (he.symm.trans hf)
      rw [hresult, hresult', if_neg fun hb => hspared q hb .refl, if_neg fun hb => hspared' q hb .refl]
      refine congrArg some (Reading.value_congr (hc.index q e he).node ⟨fun u hu x hx => ?_, rfl⟩)
      -- a planned cell that is read comes before in the plan
      refine hs.cell_congr ht fun hplanned => ?_
      obtain ⟨g, hg⟩ := hc.ordered_cells.entry x hplanned
      have hreads : c.index.Reads q x := hc.index.reads he hg hu hx
      rw [hsplit, List.mem_append] at hplanned
      exact ih x (hplanned.resolve_right (hc.index.not_mem hordered he hu hx)) (hspared.read hreads)
        (hspared'.read hreads)
  exact hprefix _ (List.prefix_refl _) p hp hspared hspared'

lemma Halfway.values_congr (hs : Halfway c broken [] s) (ht : Halfway c broken' [] t) (hc : c.Plain d)
    (hspared : c.Spared broken p) (hspared' : c.Spared broken' p) :
    (c.report s [] ∅).values[p]? = (c.report t [] ∅).values[p]? := by
  refine Option.ext fun v => ?_
  rw [report_values, report_values, mem_calculated]
  refine and_congr_right fun hp => ?_
  have hresults : s.results[p]? = t.results[p]? := by
    rcases hp with hp | hp
    · rw [hs.cyclic p hp, ht.cyclic p hp]
    · exact hs.results_congr ht hc (hp.resolve_right List.not_mem_nil) hspared hspared'
  rw [hresults]

end Calculation

namespace Engine

open Calculation

variable {e : Engine} {v : Value} {waits : Bool} {bound : Nat}

/-- The engine as it would be if its functions gave a value wherever they break off. -/
def mend (e : Engine) (v : Value) : Engine := { e with registry := e.registry.mend v }

lemma mend_load (e : Engine) (v : Value) (d : Dataset) : (e.load d).mend v = (e.mend v).load d := by
  simp only [load, reindex, mend, Config.index_congr (e.registry.isVolatile_mend v)]

/-- What functions put off, so many times at most, is waited for to the end, or else nothing is put off. -/
def Settles (e : Engine) (waits : Bool) (bound : Nat) : Prop :=
  if waits then
    e.host.Proper ∧ ∀ p x, e.index.cell? p = some x → x.node.callStarts.length * bound < Eval.maxRounds
  else bound = 0

lemma Settles.exists_follows (hw : e.Settles waits bound) {r : Registry} (h : ({ e with registry := r } : Engine).Plain)
    {stops : Prop} (hr : e.registry.AmountsTo r stops bound) :
    ∃ K, (e.calculationWith waits).Follows stops r K ∧
      K ((e.calculationWith waits).interpreter e.host.issueGeneration e.cursor).session := by
  cases waits with
  | true =>
    obtain ⟨hproper, hrounds⟩ := hw
    exact ⟨_, follows_of_waits (c := e.calculationWith true) rfl hr (bounded_of_plain h hrounds), rfl, hproper⟩
  | false =>
    obtain rfl : bound = 0 := hw
    exact ⟨_, follows_of_not_waits (c := e.calculationWith false) rfl hr, trivial⟩

/-- Whatever functions break off, a calculation runs to its end, and cells that read nothing of what breaks off have the
values that they would have if these functions gave some value instead. -/
theorem calculate_mend (h : (e.mend v).resolved.Plain) (hs : e.options.spillArrays = false)
    (ha : e.config.arrayRanges = ∅) (hd : (e.registry.mend v).Delays bound) (hw : e.Settles waits bound) :
    ∃ r mended, (e.calculate waits).1 = .completed r ∧ ((e.mend v).calculate waits).1 = .completed mended ∧
      (∀ p ∈ e.broken waits, r.values[p]? = some (.error .calculation)) ∧
      ∀ p, (∀ q ∈ e.broken waits, ¬ ReflTransGen e.index.Reads p q) → r.values[p]? = mended.values[p]? := by
  -- what is meant by both calculations
  let c := (e.mend v).resolved.calculation
  have hstill : c.Still e.pending := ⟨plain_calculation h, hs, ha⟩
  obtain ⟨K, hfollows, hK⟩ := hw.exists_follows h hd.amountsTo_mend
  obtain ⟨s, host, hhalfway, hrun⟩ := hfollows.run_broken hstill rfl e.cursor hK
  obtain ⟨K', hfollows', hK'⟩ := Settles.exists_follows (e := e.mend v) hw h (hd.amountsTo False)
  obtain ⟨u, -, hrun'⟩ := hfollows'.run_completed (d := e.pending) hstill.toPlain rfl e.cursor hK'
  have hcompleted : (e.calculate waits).1 = .completed (c.report s [] ∅) :=
    congrArg Prod.fst (calculate_of_run hrun)
  have hmended : ((e.mend v).calculate waits).1 = .completed (c.report c.lastPass [] ∅) := by
    rw [← again_still hstill]
    exact congrArg Prod.fst (calculate_of_run hrun')
  refine ⟨_, _, hcompleted, hmended, fun p hp => values_of_mem_broken hs ha hcompleted hp, fun p hp => ?_⟩
  exact hhalfway.values_congr (halfway_lastPass hstill) hstill.toPlain hp fun _ hq => nomatch hq

/-- Whatever is loaded to be calculated without spilling: what breaks off is confined to the cells that read it. -/
theorem calculate_load_mend {d : Dataset} (hd : d.Bare) (hb : d.books.Proper)
    (hown : ∀ p f, d.books.formula? p = some f → f.hasText = true)
    (htext : ∀ p f, d.books.formula? p = some f →
      PlainText (e.registry.mend v).resolved d.books.nameTable p f.text)
    (hs : e.options.spillArrays = false) (hdelays : (e.registry.mend v).Delays bound)
    (hw : (e.load d).Settles waits bound) :
    ∃ r mended, ((e.load d).calculate waits).1 = .completed r ∧
      (((e.mend v).load d).calculate waits).1 = .completed mended ∧
      (∀ p ∈ (e.load d).broken waits, r.values[p]? = some (.error .calculation)) ∧
      ∀ p, (∀ q ∈ (e.load d).broken waits, ¬ ReflTransGen (e.load d).index.Reads p q) →
        r.values[p]? = mended.values[p]? := by
  have hplain : ((e.mend v).resolved.load d).Plain := plain_load hd.toOwn (Config.anchored_load hd) hb hown htext
  rw [← resolved_load, ← mend_load] at hplain
  rw [← mend_load]
  exact calculate_mend hplain hs (Config.arrayRanges_load hd) hdelays hw

end Engine

end Spreadsheet
