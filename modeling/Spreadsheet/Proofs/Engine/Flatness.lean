import Spreadsheet.Proofs.Engine.Agreement
import Spreadsheet.Proofs.Engine.Reach
import Spreadsheet.Proofs.Evaluation.Flatness

/-! What a calculation without waiting records: items and full arrays, and arrays of items only where no errors are
replaced. -/

namespace Spreadsheet

open Std Dependency Formula

namespace Calculation

variable {nested : Prop} {c : Calculation} {i : Interpreter} {host : Host} {cursor : Cursor}

lemma solid_interpreter (c : Calculation) (host : Host) (cursor : Cursor) :
    (c.interpreter host cursor).session.Solid nested where
  results p v hv := by
    have hv : c.start.results[p]? = some v := hv
    rw [results_start, Option.ite_none_right_eq_some] at hv
    exact Option.some.inj hv.2 ▸ .item trivial
  spilled p v hv := by
    have hv : c.start.spilled[p]? = some v := hv
    rw [(sameArrays_start c).spilled] at hv
    exact (flat_seededPass.spilled p v hv).inner
  definitions k n hn := by simp [interpreter] at hn

lemma solid_recordResult (hi : i.session.Solid nested) (p : Place) :
    (i.reset.recordResult c.snapshot p (.error .calculation)).session.Solid nested := by
  have hreset : i.reset.session.Solid nested := ⟨hi.results, hi.spilled, hi.definitions⟩
  exact hreset.store (.item trivial)

lemma solid_evaluateCell (hs : c.snapshot.Apt nested) (hw : c.waits = false) (hi : i.session.Solid nested) (p : Place) :
    (c.evaluateCell i p).session.Solid nested := by
  unfold evaluateCell
  rw [hw]
  cases hp : c.index.cells.contains p with
  | true =>
    have hindex : c.snapshot.index = some c.index := rfl
    obtain ⟨v, j, heq, -, hj⟩ := Interpreter.evaluateCell_solid hs hi hindex hp
    rw [heq]
    exact hj
  | false =>
    have herror : i.evaluateCell c.snapshot p false = .error (.notAFormula p) := by
      simp [Interpreter.evaluateCell, snapshot, hp]
    rw [herror]
    exact solid_recordResult hi p

lemma solid_evaluateCells (hs : c.snapshot.Apt nested) (hw : c.waits = false) (hi : i.session.Solid nested)
    (l : List Place) : (c.evaluateCells i l).session.Solid nested := by
  induction l generalizing i with
  | nil => exact hi
  | cons p l ih =>
    have hp := solid_evaluateCell hs hw hi p
    rw [evaluateCells]
    split
    · exact ih hp
    · exact hp

lemma results_of_foldl_invalidate {s : Pass} {l : List Place} {p : Place} {v : Value}
    (h : (l.foldl Pass.invalidate s).results[p]? = some v) : s.results[p]? = some v := by
  revert h
  refine List.foldlRecOn (motive := fun t : Pass => t.results[p]? = some v → s.results[p]? = some v) _ _ id
    fun t ht q _ h => ht ?_
  unfold Pass.invalidate at h
  split at h
  · exact h
  · rw [ExtTreeMap.getElem?_erase, Option.ite_none_left_eq_some] at h
    exact h.2

lemma solid_firstRound (hs : c.snapshot.Apt nested) (hw : c.waits = false) :
    (c.firstRound host cursor).session.Solid nested := solid_evaluateCells hs hw (solid_interpreter c host cursor) _

lemma solid_secondRound (hs : c.snapshot.Apt nested) (hw : c.waits = false) :
    (c.secondRound host cursor).session.Solid nested := by
  have hsame := Pass.sameArrays_foldl_invalidate (c.spillReaders (c.firstRound host cursor).session.pass)
    (c.firstRound host cursor).session.pass
  refine solid_evaluateCells hs hw ?_ _
  exact (solid_firstRound hs hw).ofPass (fun _ _ hv => Or.inl (results_of_foldl_invalidate hv)) hsame.spilled

/-! Formulas outside the cells. -/

lemma solid_evaluateOther (hs : c.snapshot.Apt nested) (hw : c.waits = false) (hi : i.session.Solid nested) {e : Entry}
    (he : e.node.Apt nested) :
    (c.evaluateOther i e).1.Solid nested ∧ (c.evaluateOther i e).2.session.Solid nested := by
  obtain ⟨v, j, heq, hv, hj⟩ := Interpreter.evaluate_solid hs he (i := i.moveTo (c.config.books.cursor
    ⟨e.output.book, e.output.sheet, e.output.range.start.row, e.output.range.start.col⟩)) hi
  unfold evaluateOther
  simp only [hw, heq]
  exact ⟨hv, hj⟩

lemma solid_evaluateOthers (hs : c.snapshot.Apt nested) (hothers : ∀ k e, c.index.other? k = some e → e.node.Apt nested)
    (hw : c.waits = false) (hi : i.session.Solid nested) :
    (c.evaluateOthers i).2.session.Solid nested ∧ ∀ (k : ItemKey) (v : Value), (c.evaluateOthers i).1[k]? = some v → v.Solid nested := by
  rw [evaluateOthers_eq]
  refine List.foldlRecOn (motive := fun y : ItemMap Value × Interpreter => y.2.session.Solid nested ∧
    ∀ (k : ItemKey) (v : Value), y.1[k]? = some v → v.Solid nested) (b := (∅, i)) _ _ ⟨hi, by simp⟩ ?_
  rintro ⟨values, j⟩ ⟨hj, hvalues⟩ m -
  unfold otherStep
  cases hm : c.index.other? m with
  | none => exact ⟨hj, hvalues⟩
  | some e =>
    obtain ⟨hvalue, hnext⟩ := solid_evaluateOther hs hw hj (hothers m e hm)
    refine ⟨hnext, fun k v hv => ?_⟩
    rw [ExtTreeMap.getElem?_insert] at hv
    split at hv
    · exact Option.some.inj hv ▸ hvalue
    · exact hvalues k v hv

/-! Whole calculations. -/

variable {r : Report} {p : Place}

/-- The session at the end of the calculation. -/
def lastSession (c : Calculation) (host : Host) (cursor : Cursor) : Session :=
  (c.evaluateOthers (c.secondRound host cursor)).2.session

/-- What a calculation reports are solid values, for cells what cells can store of them. -/
theorem solid_of_completed (hs : c.snapshot.Apt nested) (hothers : ∀ k e, c.index.other? k = some e → e.node.Apt nested)
    (hw : c.waits = false) (hrun : (c.run host cursor).1 = .completed r) :
    (∀ (p : Place) (x : Scalar), r.values[p]? = some x → ∃ v : Value, (c.lastSession host cursor).pass.results[p]? = some v ∧ v.Solid nested ∧
      x = v.toScalar) ∧ ∀ (k : ItemKey) (v : Value), r.others[k]? = some v → v.Solid nested := by
  obtain ⟨hlast, hvalues⟩ := solid_evaluateOthers (i := c.secondRound host cursor) hs hothers hw (solid_secondRound hs hw)
  obtain ⟨-, -, rfl⟩ := report_of_completed hrun
  refine ⟨fun p x hx => ?_, hvalues⟩
  obtain ⟨-, v, hv, hvx⟩ := report_values.1 hx
  exact ⟨v, hv, hlast.results p v hv, hvx.symm⟩

/-- Where no errors are replaced, a cell reads in the end as the value that is reported for it. -/
theorem exec_readCell_of_completed (hs : c.snapshot.Apt False)
    (hothers : ∀ k e, c.index.other? k = some e → e.node.Apt False) (hw : c.waits = false)
    (hrun : (c.run host cursor).1 = .completed r) {x : Scalar} (hx : r.values[p]? = some x)
    (hp : p ∉ (c.lastSession host cursor).pass.cycles) (below : Evaluator) (scope : Scope) :
    Eval.exec (Evaluator.readCell c.snapshot below p) scope (c.lastSession host cursor) =
      (.ok (.ofScalar x), c.lastSession host cursor) := by
  obtain ⟨v, hv, hsolid, rfl⟩ := (solid_of_completed hs hothers hw hrun).1 p x hx
  rw [Evaluator.exec_readCell_known hp hv, hsolid.isFlat.topLeft_eq]

end Calculation

end Spreadsheet
