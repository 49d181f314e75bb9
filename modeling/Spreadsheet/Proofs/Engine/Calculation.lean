import Spreadsheet.Proofs.Books
import Spreadsheet.Proofs.Dependency.Plan
import Spreadsheet.Proofs.Engine.Seed

/-! A calculation of plain formulas gives its cells what they mean one after the other, and then once more to
those that read what arrays have newly covered or left. -/

namespace Spreadsheet

open Std Dependency Formula

/-- An entry of a plain formula. -/
structure Dependency.Entry.Plain (r : Registry) (p : Place) (e : Entry) : Prop where
  node : e.node.Plain r
  references : e.references = referencesOf p.book p.sheet e.node
  output : e.output.contains p = true

def Dependency.Index.Plain (r : Registry) (i : Index) : Prop := ∀ p e, i.cell? p = some e → e.Plain r p

lemma Dependency.Before.asymm {α : Type} {l : List α} {a b : α} (hl : l.Nodup) (h : Before l a b) :
    ¬ Before l b a := by
  induction l with
  | nil => exact nomatch h
  | cons x l ih =>
    obtain ⟨hx, hl⟩ := List.nodup_cons.1 hl
    intro h'
    cases h with
    | cons _ h =>
      cases h' with
      | cons _ h' => exact ih hl h h'
      | cons_cons _ h' => exact hx (h.subset (by simp))
    | cons_cons _ h =>
      cases h' with
      | cons _ h' => exact hx (h'.subset (by simp))
      | cons_cons _ h' => exact hx (h.subset (by simp))

namespace Dependency

namespace Index

variable {r : Registry} {i : Index} {p q x : Place} {e f : Entry} {s : Region} {l : List Place}

lemma Plain.reads_output (h : i.Plain r) (he : i.cell? p = some e) (hf : i.cell? q = some f)
    (hs : s ∈ referencesOf p.book p.sheet e.node) (hx : s.contains x = true) (hq : f.output.contains x = true) :
    i.Reads p q := by
  refine ⟨e, f, he, hf, s, ?_, Region.overlaps_of_contains hx hq⟩
  rwa [(h p e he).references]

lemma Plain.reads (h : i.Plain r) (he : i.cell? p = some e) (hf : i.cell? q = some f)
    (hs : s ∈ referencesOf p.book p.sheet e.node) (hq : s.contains q = true) : i.Reads p q :=
  h.reads_output he hf hs hq (h q f hf).output

/-- Formula cells none of which reads itself or one that comes after it. -/
structure Ordered (i : Index) (l : List Place) : Prop where
  entry : ∀ p ∈ l, ∃ e, i.cell? p = some e
  self : ∀ p ∈ l, ¬ i.Reads p p
  later : l.Pairwise fun p q => p ≠ q ∧ ¬ i.Reads p q

namespace Ordered

lemma sublist {l' : List Place} (h : i.Ordered l) (hl : l'.Sublist l) : i.Ordered l' :=
  ⟨fun p hp => h.entry p (hl.subset hp), fun p hp => h.self p (hl.subset hp), h.later.sublist hl⟩

lemma tail (h : i.Ordered (p :: l)) : i.Ordered l := h.sublist (List.sublist_cons_self p l)

lemma not_mem (h : i.Ordered (p :: l)) : p ∉ l := fun hp => ((List.pairwise_cons.1 h.later).1 p hp).1 rfl

lemma not_reads (h : i.Ordered (p :: l)) (hq : q ∈ p :: l) : ¬ i.Reads p q := by
  rcases List.mem_cons.1 hq with rfl | hq
  · exact h.self q List.mem_cons_self
  · exact ((List.pairwise_cons.1 h.later).1 q hq).2

lemma behind {done : List Place} (h : i.Ordered (done ++ l)) : i.Ordered l :=
  h.sublist (List.sublist_append_right done l)

end Ordered

lemma Plain.not_mem (h : i.Plain r) (hl : i.Ordered (p :: l)) (he : i.cell? p = some e)
    (hs : s ∈ referencesOf p.book p.sheet e.node) (hx : s.contains x = true) : x ∉ p :: l := by
  intro hmem
  obtain ⟨f, hf⟩ := hl.entry x hmem
  exact hl.not_reads hmem (h.reads he hf hs hx)

end Index

namespace Plan

variable {i : Index} {features : List Feature} {d : Changes} {p : Place}

lemma exists_entry (hp : p ∈ (make i features d).cells) : ∃ e, i.cell? p = some e := (dirty_cell (mem_cells.1 hp).1).2

lemma not_mem_cycles (hp : p ∈ (make i features d).cells) : p ∉ (make i features d).cycles :=
  fun hc => (mem_cells.1 hp).2 (mem_cycles.1 hc).2

lemma ordered_cells : i.Ordered (make i features d).cells where
  entry _ := exists_entry
  self p hp hr := (before_of_reads hp hp hr).asymm nodup_cells (before_of_reads hp hp hr)
  later := by
    rw [List.pairwise_iff_forall_sublist]
    intro p q hpq
    have hnodup : (make i features d).cells.Nodup := nodup_cells
    have hbefore : Before (make i features d).cells p q := hpq
    refine ⟨?_, fun hr => ?_⟩
    · rintro rfl
      exact hbefore.asymm hnodup hbefore
    · exact hbefore.asymm hnodup (before_of_reads (hpq.subset (by simp)) (hpq.subset (by simp)) hr)

end Plan

end Dependency

lemma bounded_of_mem_references {r : Registry} {book sheet : String} {n : Node} (h : n.Plain r) :
    ∀ s ∈ referencesOf book sheet n, s.range.Bounded := by
  intro s hs
  obtain ⟨m, hm, hs⟩ := List.mem_filterMap.1 hs
  cases m with
  | reference _ b t range =>
    obtain rfl := Option.some.inj hs
    exact (h _ hm).2
  | _ => cases hs

lemma Value.IsFlat.settled_eq {v : Value} (h : v.IsFlat) : v.settled = v := by
  cases v with
  | reference | pending => exact h.elim
  | _ => rfl

/-- The scope of an interpreter that evaluates nothing. -/
def Scope.home (s : Scope) : Scope := { cursor := s.cursor, generation := s.generation }

namespace Calculation

variable {c : Calculation} {i : Interpreter} {s : Pass} {p q x : Place} {e : Entry} {l : List Place} {d : Changes}

/-- Gives a cell what its formula means in the pass. -/
def settle (c : Calculation) (s : Pass) (p : Place) : Pass :=
  match c.index.cell? p with
  | none => s
  | some e => s.store c.config.books c.index p ((s.reading c.config.books).value c.registry p e.node)

def sweep (c : Calculation) (s : Pass) (l : List Place) : Pass := l.foldl c.settle s

lemma settle_eq (he : c.index.cell? p = some e) (s : Pass) : c.settle s p =
    s.store c.config.books c.index p ((s.reading c.config.books).value c.registry p e.node) := by
  rw [settle, he]

lemma results_settle (he : c.index.cell? p = some e) : (c.settle s p).results.contains p = true := by
  obtain ⟨w, -, hw⟩ := s.results_store c.config.books c.index p ((s.reading c.config.books).value c.registry p e.node)
  rw [ExtTreeMap.contains_eq_isSome_getElem?, settle_eq he, hw, if_pos rfl, Option.isSome_some]

/-- The calculation with other functions, none of which is waited for. -/
def direct (c : Calculation) (r : Registry) : Calculation := { c with registry := r, waits := false }

lemma direct_self (h : c.waits = false) : c.direct c.registry = c := by rw [direct, ← h]

/-- Does the evaluation of a cell break off? -/
def breaksOff (c : Calculation) (i : Interpreter) (p : Place) : Bool :=
  match i.evaluateCell c.snapshot p c.waits with
  | .ok (none, _) => true
  | _ => false

lemma exists_attempt (c : Calculation) (i : Interpreter) (he : c.index.cell? p = some e) :
    ∃ act : Eval Value,
      (∀ (v : Value) (t : Session), i.run c.waits {} act = (some v, ⟨i.scope, t, none⟩) →
        t.pass.results.contains p = true → c.evaluateCell i p = ⟨i.scope, t, none⟩ ∧ c.breaksOff i p = false) ∧
      (∀ j, i.run c.waits {} act = (none, j) →
        c.evaluateCell i p = j.reset.recordResult c.snapshot p (.error .calculation) ∧ c.breaksOff i p = true) ∧
      ∀ scope s, s.pass.results[p]? = none →
        Eval.exec act scope s = Eval.exec (Evaluator.calculate c.snapshot c.snapshot.evaluator p) scope s := by
  have hindex : c.index.cells.contains p = true := by
    rw [ExtTreeMap.contains_eq_isSome_getElem?]
    exact Option.isSome_iff_exists.2 ⟨e, he⟩
  apply Exists.intro
  refine ⟨?_, ?_, ?_⟩
  · intro v t hrun hrecorded
    rw [evaluateCell, breaksOff, Interpreter.evaluateCell]
    simp only [show c.snapshot.index = some c.index from rfl, hindex, Bool.not_true, Bool.false_eq_true, if_false]
    rw [hrun]
    simp only [hrecorded, if_true, and_self]
  · intro j hrun
    rw [evaluateCell, breaksOff, Interpreter.evaluateCell]
    simp only [show c.snapshot.index = some c.index from rfl, hindex, Bool.not_true, Bool.false_eq_true, if_false]
    rw [hrun]
    exact ⟨rfl, rfl⟩
  · intro scope s hs
    rw [Eval.exec_get_bind, hs]

lemma recordResult_reset {there : Scope} {t : Session} (h : there.generation = i.scope.generation) (p : Place)
    (v : Value) : (⟨there, t, some i.scope.cursor⟩ : Interpreter).reset.recordResult c.snapshot p v =
      ⟨i.scope.home, { t with pass := t.pass.store c.config.books c.index p v, answers := ∅, awaited := [] }, none⟩ := by
  simp only [Interpreter.reset, Interpreter.recordResult, Scope.home, Option.getD_some, h]
  rfl

/-- A cell has been given what its formula means with the functions of a registry. -/
structure Gives (c : Calculation) (r : Registry) (K : Session → Prop) (i : Interpreter) (p : Place) (s : Session) :
    Prop where
  evaluateCell : c.evaluateCell i p = ⟨i.scope, s, none⟩
  breaksOff : c.breaksOff i p = false
  pass : s.pass = (c.direct r).settle i.session.pass p
  generations : s.host.generations = i.session.host.generations
  kept : K s

/-- The evaluation of a cell has broken off, and nothing is left of it but `#CALC!`. -/
structure Fails (c : Calculation) (K : Session → Prop) (i : Interpreter) (p : Place) (s : Session) : Prop where
  evaluateCell : c.evaluateCell i p = ⟨i.scope.home, s, none⟩
  breaksOff : c.breaksOff i p = true
  pass : s.pass = i.session.pass.store c.config.books c.index p (.error .calculation)
  generations : s.host.generations = i.session.host.generations
  kept : K s

/-- The cells of plain formulas are given what they mean with the functions of a registry, one at a time, in
sessions of a kind, unless they break off where they may. -/
structure Follows (c : Calculation) (stops : Prop) (r : Registry) (K : Session → Prop) : Prop where
  pass : ∀ s pass, K s → K { s with pass }
  step : ∀ i p e, i.scope.cells = ∅ → i.scope.generation = c.generation → c.isCurrent i = true → K i.session →
    c.index.cell? p = some e → e.node.Plain r → i.session.pass.results[p]? = none → i.session.pass.Flat →
    (∀ t ∈ referencesOf p.book p.sheet e.node, ∀ q, t.contains q = true → i.session.pass.Quiet q) →
    (∃ s, c.Gives r K i p s) ∨ stops ∧ ∃ s, c.Fails K i p s

lemma follows_of_not_waits {r : Registry} {stops : Prop} (hw : c.waits = false) (hr : c.registry.AmountsTo r stops 0) :
    c.Follows stops r fun _ => True where
  pass _ _ := id
  step i p e hcells _ _ _ he hplain hres hflat hquiet := by
    let scope : Scope := { i.scope with waits := false, origin := {} }
    have hreads : Evaluator.Reads c.snapshot (Evaluator.ofDepth c.snapshot c.snapshot.depth)
        (scope.enterCell (c.snapshot.books.cursor p)) i.session.pass (referencesOf p.book p.sheet e.node)
        (i.session.pass.reading c.config.books) :=
      Evaluator.reads_of_quiet hflat (bounded_of_mem_references hplain) hquiet
    obtain ⟨act, hcell, hbroken, hact⟩ := exists_attempt c i he
    rcases Evaluator.exec_calculate c.snapshot scope hr he hplain rfl (by simp [scope, hcells]) _ hreads i.session rfl
      with ⟨v, s, hx, hs, hg⟩ | ⟨hstops, there, s, hx, hgeneration, hs, hg⟩
    · have hs : s.pass = (c.direct r).settle i.session.pass p := by
        rw [settle_eq (c := c.direct r) he]
        exact hs
      have hrun : i.run c.waits {} act = (some v.settled, ⟨i.scope, s, none⟩) := by
        rw [hw]
        exact Interpreter.run_ok ((hact _ _ hres).trans hx)
      obtain ⟨hevaluate, hends⟩ := hcell v.settled s hrun (hs ▸ results_settle (c := c.direct r) he)
      exact Or.inl ⟨s, hevaluate, hends, hs, hg, trivial⟩
    · have hrun : i.run c.waits {} act = (none, ⟨there, s, some i.scope.cursor⟩) := by
        rw [hw]
        exact Interpreter.run_error ((hact _ _ hres).trans hx)
      obtain ⟨hevaluate, hbreaks⟩ := hbroken _ hrun
      refine Or.inr ⟨hstops, _, hevaluate.trans (recordResult_reset hgeneration p _), hbreaks, ?_, hg, trivial⟩
      dsimp only
      rw [hs]

/-- What makes a calculation one of plain formulas. -/
structure Plain (c : Calculation) (d : Changes) : Prop where
  plan : c.plan = Plan.make c.index c.config.features d
  index : c.index.Plain c.registry
  output : ∀ p e, c.index.cell? p = some e → e.output = c.config.output p
  waits : c.waits = false
  others : c.plan.others = []
  excluded : c.config.changes.excluded = d.excluded

/-- The pass is about to calculate the cells of a list, and has changed none of their arrays. -/
structure Awaits (c : Calculation) (l : List Place) (s : Pass) : Prop where
  flat : s.Flat
  dirty : ∀ p ∈ s.dirty, p ∈ l
  results : ∀ p ∈ l, s.results[p]? = none
  anchors : ∀ p ∈ l, s.anchors[p]? = c.config.arrayRanges[p]?

namespace Plain

lemma contains_output (h : c.Plain d) (he : c.index.cell? p = some e) {r : Range}
    (hr : c.config.arrayRanges[p]? = some r) (hx : (p.area r).contains x = true) : e.output.contains x = true := by
  rw [h.output p e he, Config.output, hr]
  exact hx

lemma not_covered (h : c.Plain d) (hl : c.index.Ordered (p :: l)) (he : c.index.cell? p = some e) {t : Region}
    (ht : t ∈ referencesOf p.book p.sheet e.node) (hx : t.contains x = true) (hq : q ∈ p :: l) :
    ∀ r, c.config.arrayRanges[q]? = some r → (q.area r).contains x = false := by
  obtain ⟨f, hf⟩ := hl.entry q hq
  intro r hr
  by_contra hc
  exact hl.not_reads hq (h.index.reads_output he hf ht hx (h.contains_output hf hr (by simpa using hc)))

end Plain

namespace Awaits

lemma quiet (h : Awaits c (p :: l) s) (hc : c.Plain d) (hl : c.index.Ordered (p :: l))
    (he : c.index.cell? p = some e) {t : Region} (ht : t ∈ referencesOf p.book p.sheet e.node)
    (hx : t.contains x = true) : s.Quiet x := by
  refine ⟨fun hd => hc.index.not_mem hl he ht hx (h.dirty x hd), ?_⟩
  refine Pass.dirtyAnchorOver?_eq_none fun a r ha hr => ?_
  have hmem := h.dirty a ha
  exact hc.not_covered hl he ht hx hmem r ((h.anchors a hmem).symm.trans hr)

lemma store (h : Awaits c (p :: l) s) (hl : c.index.Ordered (p :: l)) {v : Value} (hv : v.IsFlat) :
    Awaits c l (s.store c.config.books c.index p v) := by
  have hne : ∀ q ∈ l, q ≠ p := fun q hq heq => hl.not_mem (heq ▸ hq)
  constructor
  case flat => exact h.flat.store hv
  case dirty =>
    intro q hq
    rw [Pass.mem_dirty_store] at hq
    exact (List.mem_cons.1 (h.dirty q hq.2)).resolve_left hq.1
  case results =>
    intro q hq
    rw [Pass.results_store_of_ne (hne q hq)]
    exact h.results q (List.mem_cons_of_mem _ hq)
  case anchors =>
    intro q hq
    rw [Pass.anchors_store (hne q hq)]
    exact h.anchors q (List.mem_cons_of_mem _ hq)

lemma settle (h : Awaits c (p :: l) s) (hc : c.Plain d) (hl : c.index.Ordered (p :: l)) :
    Awaits c l (c.settle s p) := by
  obtain ⟨e, he⟩ := hl.entry p List.mem_cons_self
  rw [settle_eq he]
  exact h.store hl (Reading.value_flat (hc.index p e he).node)

lemma sweep {done rest : List Place} (h : Awaits c (done ++ rest) s) (hc : c.Plain d)
    (hl : c.index.Ordered (done ++ rest)) : Awaits c rest (c.sweep s done) := by
  induction done generalizing s with
  | nil => exact h
  | cons p done ih => exact ih (h.settle hc hl) hl.tail

end Awaits

lemma Follows.evaluateCells {r : Registry} {K : Session → Prop} (hf : c.Follows False r K) (hc : (c.direct r).Plain d)
    (hl : c.index.Ordered l) (h : Awaits (c.direct r) l i.session.pass) (hscope : i.scope.cells = ∅)
    (hgeneration : i.scope.generation = c.generation) (hK : K i.session) (hcurrent : c.isCurrent i = true) :
    (c.evaluateCells i l).session.pass = (c.direct r).sweep i.session.pass l ∧
      (c.evaluateCells i l).scope = i.scope ∧ K (c.evaluateCells i l).session ∧
      c.isCurrent (c.evaluateCells i l) = true := by
  induction l generalizing i with
  | nil => exact ⟨rfl, rfl, hK, hcurrent⟩
  | cons p l ih =>
    obtain ⟨e, he⟩ := hl.entry p List.mem_cons_self
    obtain ⟨s, hx, -, hs, hg, hK⟩ := (hf.step i p e hscope hgeneration hcurrent hK he (hc.index p e he).node
      (h.results p List.mem_cons_self) h.flat fun t ht q hq => h.quiet hc hl he ht hq).resolve_right fun h => h.1
    have hnext : c.isCurrent ⟨i.scope, s, none⟩ = true := by
      rw [isCurrent] at hcurrent ⊢
      rwa [hg]
    have hawaits : Awaits (c.direct r) l s.pass := hs ▸ h.settle hc hl
    simp only [Calculation.evaluateCells, hx, hnext, if_true]
    obtain ⟨hpass, hscope', hrest⟩ := ih (i := ⟨i.scope, s, none⟩) hl.tail hawaits hscope hgeneration hK hnext
    refine ⟨hpass.trans ?_, hscope', hrest⟩
    simp only [hs]
    rfl

lemma sweep_append {done rest : List Place} : c.sweep s (done ++ rest) = c.sweep (c.sweep s done) rest :=
  List.foldl_append

lemma sweep_induction {P : Pass → Prop} (hs : P s)
    (hstep : ∀ s p e, p ∈ l → c.index.cell? p = some e → P s →
      P (s.store c.config.books c.index p ((s.reading c.config.books).value c.registry p e.node))) :
    P (c.sweep s l) := by
  induction l generalizing s with
  | nil => exact hs
  | cons p l ih =>
    refine ih (s := c.settle s p) ?_ fun s q e hq => hstep s q e (List.mem_cons_of_mem _ hq)
    cases he : c.index.cell? p with
    | none => rwa [settle, he]
    | some e =>
      rw [settle_eq he]
      exact hstep s p e List.mem_cons_self he hs

lemma cycles_sweep : (c.sweep s l).cycles = s.cycles :=
  sweep_induction (P := fun t => t.cycles = s.cycles) rfl fun _ _ _ _ _ h => Pass.cycles_store.trans h

lemma spillArrays_sweep : (c.sweep s l).spillArrays = s.spillArrays :=
  sweep_induction (P := fun t => t.spillArrays = s.spillArrays) rfl fun _ _ _ _ _ h => Pass.spillArrays_store.trans h

lemma anchors_sweep (hp : p ∉ l) : (c.sweep s l).anchors[p]? = s.anchors[p]? := by
  refine sweep_induction (P := fun t => t.anchors[p]? = s.anchors[p]?) rfl fun t q e hq _ h => ?_
  have hne : p ≠ q := fun heq => hp (by rwa [heq])
  exact (Pass.anchors_store hne).trans h

lemma results_sweep (hp : p ∉ l) : (c.sweep s l).results[p]? = s.results[p]? := by
  refine sweep_induction (P := fun t => t.results[p]? = s.results[p]?) rfl fun t q e hq _ h => ?_
  have hne : p ≠ q := fun heq => hp (by rwa [heq])
  exact (Pass.results_store_of_ne hne).trans h

/-! The two rounds of a calculation. -/

/-- The pass after the planned cells. -/
def firstPass (c : Calculation) : Pass := c.sweep c.start c.plan.cells

/-- The cells that are calculated once more. -/
def again (c : Calculation) : List Place := c.spillReaders c.firstPass

def reopened (c : Calculation) : Pass := c.again.foldl Pass.invalidate c.firstPass

/-- The pass after all cells. -/
def lastPass (c : Calculation) : Pass := c.sweep c.reopened c.again

lemma Plain.ordered_cells (hc : c.Plain d) : c.index.Ordered c.plan.cells := hc.plan ▸ Plan.ordered_cells

lemma awaits_start (hc : c.Plain d) : Awaits c c.plan.cells c.start where
  flat := by
    refine ⟨fun p v hv => ?_, fun p v hv => ?_⟩
    · rw [results_start, Option.ite_none_right_eq_some] at hv
      obtain rfl := Option.some.inj hv.2
      trivial
    · rw [(sameArrays_start c).spilled, spilled_seededPass] at hv
      obtain ⟨-, w, -, rfl⟩ := hv
      exact Value.isItem_ofScalar w
  dirty p hp := (mem_dirty_start c).1 hp
  results p hp := by
    rw [hc.plan] at hp
    rw [results_start, if_neg (hc.plan ▸ Plan.not_mem_cycles hp)]
  anchors p _ := by rw [anchors_start]

/-- An array covers another range than before the calculation. -/
def Moved (c : Calculation) (s : Pass) (p : Place) : Prop := s.anchors[p]? ≠ c.config.arrayRanges[p]?

/-- Arrays that do not count as changed are where they were. -/
def Untouched (c : Calculation) (s : Pass) : Prop :=
  ∀ p, p ∉ s.changedAnchors → s.anchors[p]? = c.config.arrayRanges[p]?

lemma untouched_start (c : Calculation) : c.Untouched c.start := by
  intro p _
  rw [anchors_start]

lemma Untouched.store (h : c.Untouched s) (q : Place) (v : Value) :
    c.Untouched (s.store c.config.books c.index q v) := by
  intro p hp
  rw [Pass.mem_changedAnchors_store, not_or, not_and_or, not_or] at hp
  by_cases heq : p = q
  · subst heq
    obtain ⟨hold, hnew⟩ := hp.1.resolve_left fun h => h rfl
    rw [Option.not_isSome_iff_eq_none] at hold hnew
    rw [hnew, ← h p hp.2, hold]
  · rw [Pass.anchors_store heq]
    exact h p hp.2

lemma Untouched.sweep (h : c.Untouched s) (l : List Place) : c.Untouched (c.sweep s l) :=
  sweep_induction (P := c.Untouched) h fun _ q _ _ _ ih => ih.store q _

lemma untouched_firstPass : c.Untouched c.firstPass := c.untouched_start.sweep _

lemma sameArrays_reopened (c : Calculation) : c.reopened.SameArrays c.firstPass :=
  Pass.sameArrays_foldl_invalidate c.again c.firstPass

lemma untouched_lastPass : c.Untouched c.lastPass := by
  refine Untouched.sweep (fun p hp => ?_) _
  rw [(sameArrays_reopened c).changedAnchors] at hp
  rw [(sameArrays_reopened c).anchors]
  exact untouched_firstPass p hp

/-- What arrays have newly covered or left. -/
def moves (c : Calculation) (s : Pass) : Changes :=
  { ranges := (c.movedAnchors s).flatMap (·.2), excluded := c.config.changes.excluded }

lemma excluded_moves (c : Calculation) (s : Pass) : (c.moves s).excluded = c.config.changes.excluded := by
  simp only [moves]

lemma mem_movedAnchors {y : Place × List Region} : y ∈ c.movedAnchors s ↔ y.1 ∈ s.changedAnchors ∧ c.Moved s y.1 ∧
    (s.anchors[y.1]?.toList ++ c.config.arrayRanges[y.1]?.toList).map (y.1.area ·) = y.2 := by
  simp only [movedAnchors, List.mem_filterMap, ExtTreeSet.mem_toList, Option.ite_none_left_eq_some, Option.some.injEq]
  constructor
  · rintro ⟨p, hp, hmoved, rfl⟩
    exact ⟨hp, hmoved, rfl⟩
  · rintro ⟨hp, hmoved, hy⟩
    exact ⟨y.1, hp, hmoved, Prod.ext rfl hy⟩

lemma Untouched.exists_movedAnchors (h : c.Untouched s) (hp : c.Moved s p) : ∃ y ∈ c.movedAnchors s, y.1 = p := by
  have hchanged : p ∈ s.changedAnchors := by_contra fun hn => hp (h p hn)
  exact ⟨(p, (s.anchors[p]?.toList ++ c.config.arrayRanges[p]?.toList).map (p.area ·)),
    mem_movedAnchors.2 ⟨hchanged, hp, rfl⟩, rfl⟩

lemma Untouched.mem_moves (h : c.Untouched s) {r : Range} (hp : c.Moved s p)
    (hr : s.anchors[p]? = some r ∨ c.config.arrayRanges[p]? = some r) : p.area r ∈ (c.moves s).ranges := by
  obtain ⟨y, hy, rfl⟩ := h.exists_movedAnchors hp
  refine List.mem_flatMap.2 ⟨y, hy, ?_⟩
  rw [← (mem_movedAnchors.1 hy).2.2]
  refine List.mem_map.2 ⟨r, List.mem_append.2 ?_, rfl⟩
  simpa only [Option.mem_toList, Option.mem_def] using hr

lemma spillReaders_eq (c : Calculation) (s : Pass) : c.spillReaders s =
    if (c.movedAnchors s).isEmpty then []
    else (Plan.make c.index [] (c.moves s)).cells.filter fun p => !(c.movedAnchors s).any (·.1 == p) := rfl

lemma sublist_spillReaders (c : Calculation) (s : Pass) :
    (c.spillReaders s).Sublist (Plan.make c.index [] (c.moves s)).cells := by
  rw [spillReaders_eq]
  split
  · exact List.nil_sublist _
  · exact List.filter_sublist

lemma Untouched.not_moved (h : c.Untouched s) (hp : p ∈ c.spillReaders s) : ¬ c.Moved s p := by
  intro hmoved
  obtain ⟨y, hy, rfl⟩ := h.exists_movedAnchors hmoved
  rw [spillReaders_eq] at hp
  split at hp
  · exact nomatch hp
  · have hany := (List.mem_filter.1 hp).2
    rw [Bool.not_eq_true', List.any_eq_false] at hany
    exact hany y hy (beq_self_eq_true _)

/-- Of the cells that read what has moved only those are left out whose own arrays have moved. -/
lemma Untouched.mem_spillReaders (h : c.Untouched s) (hp : p ∈ (Plan.make c.index [] (c.moves s)).cells)
    (hn : ¬ c.Moved s p) (hq : c.Moved s q) : p ∈ c.spillReaders s := by
  obtain ⟨y, hy, -⟩ := h.exists_movedAnchors hq
  rw [spillReaders_eq, if_neg (by simpa using List.ne_nil_of_mem hy), List.mem_filter]
  refine ⟨hp, ?_⟩
  rw [Bool.not_eq_true', List.any_eq_false]
  intro z hz heq
  obtain rfl : z.1 = p := by simpa using heq
  exact hn (mem_movedAnchors.1 hz).2.1

lemma exists_moved_of_mem_spillReaders (hp : p ∈ c.spillReaders s) : ∃ q, c.Moved s q := by
  rw [spillReaders_eq] at hp
  split at hp
  · exact nomatch hp
  · rename_i hmoved
    obtain ⟨y, hy⟩ := List.exists_mem_of_ne_nil _ (mt List.isEmpty_iff.2 hmoved)
    exact ⟨y.1, (mem_movedAnchors.1 hy).2.1⟩

lemma ordered_again : c.index.Ordered c.again :=
  Plan.ordered_cells.sublist (sublist_spillReaders c c.firstPass)

lemma acyclic_spillReaders (hplan : c.plan = Plan.make c.index c.config.features d)
    (hexcluded : d.excluded = c.config.changes.excluded) (hp : p ∈ c.spillReaders s) : p ∉ c.plan.cycles := by
  intro hcycle
  rw [hplan, Plan.mem_cycles, hexcluded] at hcycle
  exact (Plan.mem_cells.1 ((sublist_spillReaders c s).subset hp)).2 hcycle.2

lemma Plain.acyclic_again (hc : c.Plain d) (hp : p ∈ c.again) : p ∉ c.plan.cycles :=
  acyclic_spillReaders hc.plan hc.excluded.symm hp

lemma awaits_firstPass (hc : c.Plain d) : Awaits c [] c.firstPass := by
  have h := awaits_start hc
  rw [← List.append_nil c.plan.cells] at h
  exact h.sweep hc (by simpa using hc.ordered_cells)

lemma cycles_firstPass : p ∈ c.firstPass.cycles ↔ p ∈ c.plan.cycles := by
  rw [firstPass, cycles_sweep, mem_cycles_start]

lemma results_reopened (hc : c.Plain d) :
    c.reopened.results[p]? = if p ∈ c.again then none else c.firstPass.results[p]? :=
  Pass.results_foldl_invalidate fun hp hcycle => hc.acyclic_again hp (cycles_firstPass.1 hcycle)

lemma awaits_reopened (hc : c.Plain d) : Awaits c c.again c.reopened where
  flat := by
    refine ⟨fun p v hv => ?_, fun p v hv => ?_⟩
    · rw [results_reopened hc, Option.ite_none_left_eq_some] at hv
      exact (awaits_firstPass hc).flat.results p v hv.2
    · rw [(sameArrays_reopened c).spilled] at hv
      exact (awaits_firstPass hc).flat.spilled p v hv
  dirty p hp := (Pass.mem_dirty_foldl_invalidate hp).resolve_right fun h => nomatch (awaits_firstPass hc).dirty p h
  results p hp := by rw [results_reopened hc, if_pos hp]
  anchors p hp := by
    rw [(sameArrays_reopened c).anchors]
    exact not_not.1 (untouched_firstPass.not_moved hp)

/-- The interpreter after the planned cells. -/
def firstRound (c : Calculation) (host : Host) (cursor : Cursor) : Interpreter :=
  c.evaluateCells (c.interpreter host cursor) c.plan.cells

/-- The interpreter after the cells that are calculated once more. -/
def secondRound (c : Calculation) (host : Host) (cursor : Cursor) : Interpreter :=
  let again := c.spillReaders (c.firstRound host cursor).session.pass
  c.evaluateCells ((c.firstRound host cursor).modifyPass fun pass => again.foldl Pass.invalidate pass) again

variable {host : Host} {cursor : Cursor}

section Follows

variable {r : Registry} {K : Session → Prop}

lemma Follows.firstRound (hf : c.Follows False r K) (hc : (c.direct r).Plain d) (hg : host.generations.latest = c.generation)
    (cursor : Cursor)     (hK : K (c.interpreter host cursor).session) :
    (c.firstRound host cursor).session.pass = (c.direct r).firstPass ∧
      (c.firstRound host cursor).scope = (c.interpreter host cursor).scope ∧ K (c.firstRound host cursor).session ∧
      c.isCurrent (c.firstRound host cursor) = true := by
  have hcurrent : c.isCurrent (c.interpreter host cursor) = true := by
    simp [isCurrent, interpreter, Generations.isCurrent, hg]
  exact hf.evaluateCells (i := c.interpreter host cursor) hc hc.ordered_cells (awaits_start hc) rfl rfl hK hcurrent

lemma Follows.secondRound (hf : c.Follows False r K) (hc : (c.direct r).Plain d) (hg : host.generations.latest = c.generation)
    (cursor : Cursor)     (hK : K (c.interpreter host cursor).session) :
    (c.secondRound host cursor).session.pass = (c.direct r).lastPass ∧ K (c.secondRound host cursor).session ∧
      c.isCurrent (c.secondRound host cursor) = true := by
  obtain ⟨hpass, hscope, hK, hcurrent⟩ := hf.firstRound hc hg cursor hK
  have hreopened : ((c.firstRound host cursor).modifyPass fun pass =>
      (c.direct r).again.foldl Pass.invalidate pass).session.pass = (c.direct r).reopened := by
    rw [Interpreter.modifyPass, hpass]
    rfl
  obtain ⟨hlast, -, hK, hcurrent⟩ := hf.evaluateCells (i := (c.firstRound host cursor).modifyPass fun pass =>
    (c.direct r).again.foldl Pass.invalidate pass) hc (ordered_again (c := c.direct r))
    (hreopened ▸ awaits_reopened hc) (congrArg Scope.cells hscope) (congrArg Scope.generation hscope)
    (hf.pass _ _ hK) hcurrent
  rw [hreopened] at hlast
  rw [Calculation.secondRound, hpass]
  exact ⟨hlast, hK, hcurrent⟩

end Follows

lemma firstRound_spec (hc : c.Plain d) (hg : host.generations.latest = c.generation) :
    (c.firstRound host cursor).session.pass = c.firstPass ∧ (c.firstRound host cursor).scope.cells = ∅ ∧
      c.isCurrent (c.firstRound host cursor) = true := by
  have hdirect := direct_self hc.waits
  have hplain : (c.direct c.registry).Plain d := by rwa [hdirect]
  obtain ⟨hpass, hscope, -, hcurrent⟩ := (follows_of_not_waits hc.waits (Registry.amountsTo_self _ False)).firstRound hplain hg cursor trivial
  rw [hdirect] at hpass
  exact ⟨hpass, congrArg Scope.cells hscope, hcurrent⟩

lemma secondRound_spec (hc : c.Plain d) (hg : host.generations.latest = c.generation) :
    (c.secondRound host cursor).session.pass = c.lastPass ∧ c.isCurrent (c.secondRound host cursor) = true := by
  have hdirect := direct_self hc.waits
  have hplain : (c.direct c.registry).Plain d := by rwa [hdirect]
  obtain ⟨hpass, -, hcurrent⟩ := (follows_of_not_waits hc.waits (Registry.amountsTo_self _ False)).secondRound hplain hg cursor trivial
  rw [hdirect] at hpass
  exact ⟨hpass, hcurrent⟩

lemma run_eq (c : Calculation) (host : Host) (cursor : Cursor) : c.run host cursor =
    if !c.isCurrent (c.firstRound host cursor) then
      (.superseded c.generation, (c.firstRound host cursor).session.host)
    else if !c.isCurrent (c.secondRound host cursor) then
      (.superseded c.generation, (c.secondRound host cursor).session.host)
    else
      let again := c.spillReaders (c.firstRound host cursor).session.pass
      let evaluated := c.evaluateOthers (c.secondRound host cursor)
      if !c.isCurrent evaluated.2 then (.superseded c.generation, evaluated.2.session.host)
      else (.completed (c.report evaluated.2.session.pass again evaluated.1), evaluated.2.session.host) := rfl

theorem Follows.run_completed {r : Registry} {K : Session → Prop} (hf : c.Follows False r K) (hc : (c.direct r).Plain d)
    (hg : host.generations.latest = c.generation) (cursor : Cursor)
    (hK : K (c.interpreter host cursor).session) :
    ∃ s : Session, K s ∧ c.run host cursor =
      (.completed ((c.direct r).report (c.direct r).lastPass (c.direct r).again ∅), s.host) := by
  obtain ⟨hfirst, -, -, hcurrent⟩ := hf.firstRound hc hg cursor hK
  obtain ⟨hlast, hK, hcurrent'⟩ := hf.secondRound hc hg cursor hK
  have hothers : c.plan.others = [] := hc.others
  refine ⟨(c.secondRound host cursor).session, hK, ?_⟩
  simp only [run_eq, hcurrent, hcurrent', Bool.not_true, Bool.false_eq_true, if_false, evaluateOthers, hothers,
    List.foldl_nil, hfirst, hlast]
  rfl

theorem run_completed (hc : c.Plain d) (hg : host.generations.latest = c.generation) :
    ∃ host', c.run host cursor = (.completed (c.report c.lastPass c.again ∅), host') := by
  have hdirect := direct_self hc.waits
  have hplain : (c.direct c.registry).Plain d := by rwa [hdirect]
  obtain ⟨s, -, hrun⟩ := (follows_of_not_waits hc.waits (Registry.amountsTo_self _ False)).run_completed hplain hg cursor trivial
  rw [hdirect] at hrun
  exact ⟨s.host, hrun⟩

end Calculation

end Spreadsheet
