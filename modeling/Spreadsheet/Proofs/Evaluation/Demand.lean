import Spreadsheet.Proofs.Evaluation.Once
import Spreadsheet.Proofs.Evaluation.Pass

/-! Cells that are calculated because they are read are stored once. What had a result keeps it, and evaluations end in the
scope in which they started. -/

namespace Spreadsheet

open Std Text Dependency Formula

namespace Pass

variable {books : Books} {index : Index} {s t u : Pass} {p q : Place} {v : Value} {log more : List (Place × Value)}
  {may may' : Place → Prop}

/-- No cell that is still to be calculated has a result. -/
def Apart (s : Pass) : Prop := ∀ p ∈ s.dirty, p ∉ s.results

def storeAll (s : Pass) (books : Books) (index : Index) (log : List (Place × Value)) : Pass :=
  log.foldl (fun s x => s.store books index x.1 x.2) s

lemma storeAll_append : s.storeAll books index (log ++ more) = (s.storeAll books index log).storeAll books index more :=
  List.foldl_append

lemma mem_results_store : q ∈ (s.store books index p v).results ↔ q = p ∨ q ∈ s.results := by
  obtain ⟨w, -, hresults⟩ := s.results_store books index p v
  rw [ExtTreeMap.mem_iff_isSome_getElem?, ExtTreeMap.mem_iff_isSome_getElem?, hresults]
  split <;> simp_all

lemma mem_dirty_storeAll : q ∈ (s.storeAll books index log).dirty ↔ q ∉ log.map (·.1) ∧ q ∈ s.dirty := by
  induction log generalizing s with
  | nil => simp [storeAll]
  | cons x log ih =>
    rw [storeAll, List.foldl_cons, ← storeAll, ih, mem_dirty_store, List.map_cons, List.mem_cons, not_or]
    tauto

lemma mem_results_storeAll : q ∈ (s.storeAll books index log).results ↔ q ∈ log.map (·.1) ∨ q ∈ s.results := by
  induction log generalizing s with
  | nil => simp [storeAll]
  | cons x log ih =>
    rw [storeAll, List.foldl_cons, ← storeAll, ih, mem_results_store, List.map_cons, List.mem_cons]
    tauto

lemma getElem?_results_storeAll (h : q ∉ log.map (·.1)) : (s.storeAll books index log).results[q]? = s.results[q]? := by
  induction log generalizing s with
  | nil => rfl
  | cons x log ih =>
    obtain ⟨hx, hlog⟩ := List.ne_and_not_mem_of_not_mem_cons h
    rw [storeAll, List.foldl_cons, ← storeAll, ih hlog, results_store_of_ne hx]

/-- From one pass to another results of some cells are stored, for every cell once. -/
def Fills (books : Books) (index : Index) (may : Place → Prop) (s t : Pass) : Prop :=
  ∃ log : List (Place × Value), t = s.storeAll books index log ∧ (log.map (·.1)).Nodup ∧ ∀ p ∈ log.map (·.1), may p

namespace Fills

lemma refl (s : Pass) : Fills books index may s s := ⟨[], rfl, List.nodup_nil, fun _ hp => nomatch hp⟩

lemma single (hp : may p) : Fills books index may s (s.store books index p v) :=
  ⟨[(p, v)], rfl, List.nodup_singleton _, List.forall_mem_singleton.2 hp⟩

/-- What may be stored twice is still to be calculated or has no result when its second turn comes. -/
lemma trans (h : Fills books index may s t) (h' : Fills books index may' t u)
    (hmay : ∀ q, may q → may' q → q ∈ t.dirty ∨ q ∉ t.results) : Fills books index (fun q => may q ∨ may' q) s u := by
  obtain ⟨log, rfl, hnodup, hlog⟩ := h
  obtain ⟨more, rfl, hnodup', hmore⟩ := h'
  refine ⟨log ++ more, storeAll_append.symm, ?_, fun q hq => ?_⟩
  · rw [List.map_append, List.nodup_append]
    refine ⟨hnodup, hnodup', fun q hq q' hq' heq => ?_⟩
    subst heq
    rcases hmay q (hlog q hq) (hmore q hq') with hdirty | hnone
    · exact (mem_dirty_storeAll.1 hdirty).1 hq
    · exact hnone (mem_results_storeAll.2 (.inl hq))
  · rw [List.map_append, List.mem_append] at hq
    exact hq.imp (hlog q) (hmore q)

lemma mono (h : Fills books index may s t) (hmay : ∀ q, may q → may' q) : Fills books index may' s t := by
  obtain ⟨log, rfl, hnodup, hlog⟩ := h
  exact ⟨log, rfl, hnodup, fun q hq => hmay q (hlog q hq)⟩

lemma dirty_subset (h : Fills books index may s t) (hq : q ∈ t.dirty) : q ∈ s.dirty := by
  obtain ⟨log, rfl, -, -⟩ := h
  exact (mem_dirty_storeAll.1 hq).2

lemma results_subset (h : Fills books index may s t) (hq : q ∈ s.results) : q ∈ t.results := by
  obtain ⟨log, rfl, -, -⟩ := h
  exact mem_results_storeAll.2 (.inr hq)

end Fills

end Pass

namespace Evaluator

open Eval

variable {snapshot : Snapshot} {below : Evaluator} {scope : Scope} {α : Type} {x : Eval α} {p : Place}

/-- Only cells that were still to be calculated, and that are not under evaluation, are stored, for every cell once. -/
abbrev Demanded (snapshot : Snapshot) (cells : PlaceSet) (base : Pass) : Pass → Prop :=
  base.Fills snapshot.books snapshot.formulas fun q => q ∈ base.dirty ∧ q ∉ cells

/-- An evaluation that stores nothing else, whatever is still to be calculated when it starts. -/
def OnDemand (snapshot : Snapshot) (scope : Scope) (x : Eval α) : Prop :=
  ∀ base : Pass, InStep (Demanded snapshot scope.cells base) scope x x

lemma onDemand_pure (a : α) : OnDemand snapshot scope (pure a) := fun _ => inStep_pure a

/-- Where a cell leads to, its own result is stored last. -/
lemma fills_calculate (h : ∀ e, snapshot.formulas.cell? p = some e → p ∉ scope.cells →
      OnDemand snapshot (scope.enterCell (snapshot.books.cursor p)) (below.value e.node)) (s : Session) :
    s.pass.Fills snapshot.books snapshot.formulas (fun q => (q ∈ s.pass.dirty ∨ q = p) ∧ q ∉ scope.cells)
      (exec (calculate snapshot below p) scope s).2.pass := by
  by_cases hp : p ∈ scope.cells
  · rw [exec_calculate_open hp]
    exact .refl _
  cases he : snapshot.formulas.cell? p with
  | none =>
    rw [exec_calculate_of_none he hp]
    exact .refl _
  | some e =>
    obtain ⟨-, hvalue, -⟩ := h e he hp s.pass s (.refl _)
    have hentered : ∀ q, q ∈ s.pass.dirty ∧ q ∉ (scope.enterCell (snapshot.books.cursor p)).cells →
        (q ∈ s.pass.dirty ∨ q = p) ∧ q ∉ scope.cells := by
      rintro q ⟨hq, hfree⟩
      exact ⟨.inl hq, fun hmem => hfree (ExtTreeSet.mem_insert.2 (.inr hmem))⟩
    rw [exec_calculate_entered he hp]
    rcases hx : exec (below.value e.node) (scope.enterCell (snapshot.books.cursor p)) s with ⟨there | v, t⟩
    · rw [hx] at hvalue
      exact hvalue.mono hentered
    · rw [hx] at hvalue
      dsimp only
      split
      · exact hvalue.mono hentered
      · -- the cell itself was under evaluation all the while
        refine (hvalue.trans (.single (Eq.refl p)) ?_).mono ?_
        · rintro q ⟨-, hfree⟩ rfl
          exact (hfree ExtTreeSet.mem_insert_self).elim
        · rintro q (hq | rfl)
          · exact hentered q hq
          · exact ⟨.inr rfl, hp⟩

/-- What cells lead to when it is their turn is stored once, together with all that was stored before. -/
lemma turns_onDemand (h : ∀ p e, snapshot.formulas.cell? p = some e → p ∉ scope.cells →
      OnDemand snapshot (scope.enterCell (snapshot.books.cursor p)) (below.value e.node)) (base : Pass) :
    Turns snapshot below below (Demanded snapshot scope.cells base) scope := by
  intro p s hs hp
  have hcell : ∀ q, (q ∈ s.pass.dirty ∨ q = p) ∧ q ∉ scope.cells → q ∈ s.pass.dirty ∧ q ∉ scope.cells := by
    rintro q ⟨hq | rfl, hfree⟩
    · exact ⟨hq, hfree⟩
    · exact ⟨hp, hfree⟩
  refine ⟨rfl, (hs.trans (fills_calculate (h p) s) fun q _ hq => .inl (hcell q hq).1).mono ?_, fun _ _ => trivial⟩
  rintro q (hq | hq)
  · exact hq
  · exact ⟨hs.dirty_subset (hcell q hq).1, (hcell q hq).2⟩

lemma onDemand_ofDepth (snapshot : Snapshot) (levels : Nat) : ∀ scope : Scope,
    (∀ n, OnDemand snapshot scope ((ofDepth snapshot levels).evaluate n)) ∧
      ∀ v, OnDemand snapshot scope ((ofDepth snapshot levels).materialize v) := by
  induction levels with
  | zero => exact fun scope => ⟨fun _ => onDemand_pure _, fun _ => onDemand_pure _⟩
  | succ levels ih =>
    intro scope
    have hturns : ∀ base, Turns snapshot (ofDepth snapshot levels) (ofDepth snapshot levels)
        (Demanded snapshot scope.cells base) scope := turns_onDemand fun p e _ _ base =>
      inStep_bind ((ih _).1 e.node base) fun v => (ih _).2 v base
    refine ⟨fun n base => inStep_evaluate (hturns base) (fun name => ?_) n, fun v base => inStep_materialize (hturns base) v⟩
    exact inStep_evaluateName fun d n _ _ => (ih (scope.enterName ⟨scope.cursor.place.book, d.scope, upper name⟩)).1 n base

lemma onDemand_value (n : Node) : OnDemand snapshot scope (snapshot.evaluator.value n) := fun base =>
  inStep_bind ((onDemand_ofDepth snapshot _ scope).1 n base) fun v => (onDemand_ofDepth snapshot _ scope).2 v base

end Evaluator

namespace Interpreter

open Eval Evaluator

variable {i j : Interpreter} {snapshot : Snapshot} {p : Place} {v : Value} {given : Place → Prop}

/-- What an evaluation leaves behind that ends with a value, where a cell may be given to it to be stored. -/
structure WritesOnce (snapshot : Snapshot) (given : Place → Prop) (i j : Interpreter) : Prop where
  scope : j.scope = i.scope
  /-- What was recorded stays as it was. -/
  kept : ∀ q ∈ i.session.pass.results, j.session.pass.results[q]? = i.session.pass.results[q]?
  /-- The newly recorded cells are those that are not to be calculated any more, and the cell given if it was not recorded. -/
  recorded : ∀ q, q ∉ i.session.pass.results ∧ q ∈ j.session.pass.results ↔
    q ∈ i.session.pass.dirty ∧ q ∉ j.session.pass.dirty ∨ given q ∧ q ∉ i.session.pass.results
  /-- Their results are stored one after the other, each once, and nothing else happens to the pass. -/
  stored : ∃ log : List (Place × Value),
    j.session.pass = i.session.pass.storeAll snapshot.books snapshot.formulas log ∧ (log.map (·.1)).Nodup ∧
      ∀ q, q ∈ log.map (·.1) ↔ q ∉ i.session.pass.results ∧ q ∈ j.session.pass.results
  apart : j.session.pass.Apart

lemma writesOnce_of_fills (happart : i.session.pass.Apart) (hscope : j.scope = i.scope)
    (hfills : i.session.pass.Fills snapshot.books snapshot.formulas
      (fun q => q ∈ i.session.pass.dirty ∨ given q ∧ q ∉ i.session.pass.results) j.session.pass)
    (hgiven : ∀ q, given q → q ∈ j.session.pass.results) : WritesOnce snapshot given i j := by
  obtain ⟨log, hlog, hnodup, hmay⟩ := hfills
  have hnone : ∀ q ∈ log.map (·.1), q ∉ i.session.pass.results := fun q hq =>
    (hmay q hq).elim (happart q) And.right
  have hresults : ∀ q, q ∈ j.session.pass.results ↔ q ∈ log.map (·.1) ∨ q ∈ i.session.pass.results := fun q => by
    rw [hlog, Pass.mem_results_storeAll]
  have hdirty : ∀ q, q ∈ j.session.pass.dirty ↔ q ∉ log.map (·.1) ∧ q ∈ i.session.pass.dirty := fun q => by
    rw [hlog, Pass.mem_dirty_storeAll]
  have hnew : ∀ q, q ∈ log.map (·.1) ↔ q ∉ i.session.pass.results ∧ q ∈ j.session.pass.results := fun q => by
    rw [hresults]
    exact ⟨fun hq => ⟨hnone q hq, .inl hq⟩, fun h => h.2.resolve_right h.1⟩
  refine ⟨hscope, fun q hq => ?_, fun q => ?_, ⟨log, hlog, hnodup, hnew⟩, fun q hq => ?_⟩
  · rw [hlog, Pass.getElem?_results_storeAll fun hmem => hnone q hmem hq]
  · rw [← hnew, hdirty]
    constructor
    · intro hq
      exact (hmay q hq).imp_left fun hmem => ⟨hmem, fun h => h.1 hq⟩
    · rintro (⟨hmem, hleft⟩ | ⟨hq, hfresh⟩)
      · exact not_not.1 fun hq => hleft ⟨hq, hmem⟩
      · exact ((hresults q).1 (hgiven q hq)).resolve_right hfresh
  · obtain ⟨hfree, hmem⟩ := (hdirty q).1 hq
    rw [hresults, not_or]
    exact ⟨hfree, happart q hmem⟩

lemma inStep_cellAttempt (snapshot : Snapshot) (p : Place) (base : Pass) (scope : Scope) :
    InStep (base.Fills snapshot.books snapshot.formulas fun q => q ∈ base.dirty ∨ q = p ∧ q ∉ base.results) scope
      (cellAttempt snapshot p) (cellAttempt snapshot p) := by
  intro s hs
  refine ⟨rfl, ?_, fun _ _ => trivial⟩
  rw [cellAttempt, exec_get_bind]
  cases hv : s.pass.results[p]? with
  | some v => exact hs
  | none =>
    have hnone : p ∉ s.pass.results := by
      rw [ExtTreeMap.mem_iff_isSome_getElem?, hv]
      exact Bool.false_ne_true
    dsimp only
    refine (hs.trans (fills_calculate (fun e _ _ => onDemand_value e.node) s) ?_).mono ?_
    · rintro q - ⟨hq | rfl, -⟩
      · exact .inl hq
      · exact .inr hnone
    · rintro q (hq | ⟨hq | rfl, -⟩)
      · exact hq
      · exact .inl (hs.dirty_subset hq)
      · exact .inr ⟨rfl, fun hq => hnone (hs.results_subset hq)⟩

lemma fills_evaluate {n : Node} {waits : Bool} (hrun : i.evaluate snapshot n waits = (some v, j)) :
    j.scope = i.scope ∧ i.session.pass.Fills snapshot.books snapshot.formulas (· ∈ i.session.pass.dirty) j.session.pass := by
  obtain ⟨hfills, hscope⟩ := run_spec (R := fun _ => True) hrun (onDemand_value n i.session.pass) (fun _ _ => trivial)
    trivial (.refl _)
  exact ⟨(hscope v rfl).2, hfills.mono fun _ => And.left⟩

lemma fills_evaluateCell {waits : Bool} (hrun : i.evaluateCell snapshot p waits = .ok (some v, j)) :
    j.scope = i.scope ∧ p ∈ j.session.pass.results ∧ i.session.pass.Fills snapshot.books snapshot.formulas
      (fun q => q ∈ i.session.pass.dirty ∨ q = p ∧ q ∉ i.session.pass.results) j.session.pass := by
  rw [evaluateCell_eq] at hrun
  split at hrun
  · cases hrun
  · rename_i index hindex
    have hformulas : snapshot.formulas = index := by rw [Snapshot.formulas, hindex, Option.getD_some]
    split at hrun
    · cases hrun
    · have hkeep := Except.ok.inj hrun
      rcases hattempt : i.run waits {} (cellAttempt snapshot p) with ⟨_ | w, k⟩
      · rw [hattempt] at hkeep
        cases hkeep
      · obtain ⟨hfills, hscope⟩ := run_spec (R := fun _ => True) hattempt
          (inStep_cellAttempt snapshot p i.session.pass _) (fun _ _ => trivial) trivial (.refl _)
        have hscope := (hscope w rfl).2
        rw [hattempt, keepResult] at hkeep
        split at hkeep
        · rename_i hp
          obtain ⟨-, rfl⟩ := Prod.mk.inj hkeep
          exact ⟨hscope, ExtTreeMap.contains_iff_mem.1 hp, hfills⟩
        · rename_i hp
          obtain ⟨-, rfl⟩ := Prod.mk.inj hkeep
          rw [ExtTreeMap.contains_iff_mem] at hp
          refine ⟨hscope, Pass.mem_results_store.2 (.inl rfl), ?_⟩
          rw [← hformulas]
          refine (hfills.trans (.single (Eq.refl p)) ?_).mono ?_
          · rintro q - rfl
            exact .inr hp
          · rintro q (hq | rfl)
            · exact hq
            · exact .inr ⟨rfl, fun hq => hp (hfills.results_subset hq)⟩

/-- Where no cell that is still to be calculated has a result, formulas and formula cells that are evaluated to the end leave
the scope as it was and all that is recorded, store the cells that they calculate once, and leave no cell still to be
calculated that has a result. -/
theorem writesOnce (i : Interpreter) (happart : i.session.pass.Apart) :
    (∀ (n : Node) (waits : Bool) (v : Value) (j : Interpreter), i.evaluate snapshot n waits = (some v, j) →
      WritesOnce snapshot (fun _ => False) i j) ∧
    ∀ (p : Place) (waits : Bool) (v : Value) (j : Interpreter), i.evaluateCell snapshot p waits = .ok (some v, j) →
      WritesOnce snapshot (· = p) i j := by
  constructor
  · intro n waits v j hrun
    obtain ⟨hscope, hfills⟩ := fills_evaluate hrun
    exact writesOnce_of_fills happart hscope (hfills.mono fun _ => .inl) fun _ h => h.elim
  · intro p waits v j hrun
    obtain ⟨hscope, hp, hfills⟩ := fills_evaluateCell hrun
    exact writesOnce_of_fills happart hscope hfills fun q hq => hq ▸ hp

/-- A sheet on which an array is still to be calculated that spilled before. One cell reads what it spills, and another cell
has its result. -/
def arrayCell : Place := ⟨"", "", 0, 0⟩

def belowCell : Place := ⟨"", "", 1, 0⟩

def readerCell : Place := ⟨"", "", 0, 1⟩

def knownCell : Place := ⟨"", "", 0, 2⟩

def arrayNode : Node := .array ⟨0, 1⟩ [[.literal ⟨0, 1⟩ (.boolean true)], [.literal ⟨1, 2⟩ (.boolean false)]]

def readerNode : Node := .reference ⟨0, 1⟩ none none (Range.cell 1 0)

def arrayIndex : Index where
  cells := (∅ : PlaceMap Entry)
    |>.insert arrayCell ⟨"", arrayNode, [], [], [], false, arrayCell.region⟩
    |>.insert readerCell ⟨"", readerNode, [belowCell.region], [], [], false, readerCell.region⟩

def arraySnapshot : Snapshot where
  registry := ⟨∅⟩
  books := Books.ofList [{ id := "", name := "", sheets := [{ id := "", name := "" }] }]
  names := .empty
  index := some arrayIndex

def arrayPass : Pass where
  results := (∅ : PlaceMap Value).insert knownCell (.boolean true)
  spilled := (∅ : PlaceMap Value).insert belowCell (.boolean true)
  anchors := (∅ : PlaceMap Range).insert arrayCell (Range.between 0 0 1 0)
  dirty := (∅ : PlaceSet).insert arrayCell

def arrayInterpreter : Interpreter := ⟨{ cursor := ⟨readerCell, maxRows, maxCols⟩ }, { pass := arrayPass }, none⟩

theorem writesOnce_array : arrayInterpreter.session.pass.Apart ∧
    (∃ j : Interpreter, arrayInterpreter.evaluate arraySnapshot readerNode false = (some (.boolean false), j) ∧
      (arrayCell ∈ j.session.pass.results ∧ readerCell ∉ j.session.pass.results) ∧
      WritesOnce arraySnapshot (fun _ => False) arrayInterpreter j) ∧
    ∃ j : Interpreter, arrayInterpreter.evaluateCell arraySnapshot readerCell true = .ok (some (.boolean false), j) ∧
      (arrayCell ∈ j.session.pass.results ∧ readerCell ∈ j.session.pass.results) ∧
      WritesOnce arraySnapshot (· = readerCell) arrayInterpreter j := by
  have happart : arrayInterpreter.session.pass.Apart := by
    intro p hp
    rcases ExtTreeSet.mem_insert.1 hp with heq | hp
    · obtain rfl := Std.compare_eq_iff_eq.1 heq
      decide
    · exact absurd hp ExtTreeSet.not_mem_empty
  have hevaluate : arrayInterpreter.evaluate arraySnapshot readerNode false =
    (some (.boolean false), (arrayInterpreter.evaluate arraySnapshot readerNode false).2) := rfl
  obtain ⟨j, hcell, harray, hreader⟩ : ∃ j : Interpreter,
      arrayInterpreter.evaluateCell arraySnapshot readerCell true = .ok (some (.boolean false), j) ∧
        arrayCell ∈ j.session.pass.results ∧ readerCell ∈ j.session.pass.results := ⟨_, rfl, by decide, by decide⟩
  obtain ⟨hformula, hformulaCell⟩ := writesOnce arrayInterpreter happart
  exact ⟨happart, ⟨_, hevaluate, by decide, hformula _ _ _ _ hevaluate⟩, j, hcell, ⟨harray, hreader⟩,
    hformulaCell _ _ _ _ hcell⟩

end Interpreter

end Spreadsheet
