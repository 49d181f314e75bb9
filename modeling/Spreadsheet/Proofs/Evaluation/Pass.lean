import Spreadsheet.Proofs.Evaluation.Formula
import Spreadsheet.Proofs.Evaluation.Spill

/-! Cells in a pass, as long as what they read is not still to be calculated. -/

namespace Spreadsheet

open Dependency Formula Std

namespace Pass

/-- What cells read as that are not to be calculated any more. -/
def reading (s : Pass) (books : Books) : Reading where
  cell p :=
    if s.cycles.contains p then .error .cycle
    else ((s.results[p]?.or s.spilled[p]?).map Value.toScalar).getD ((books.value? p).getD .empty)
  hasSheet book sheet := (books.sheet? book sheet).isSome

/-- Nothing has to be calculated before the place can be read. -/
def Quiet (s : Pass) (p : Place) : Prop := p ∉ s.dirty ∧ s.dirtyAnchorOver? p = none

/-- Results are values and arrays of values, and what has spilled are values. -/
structure Flat (s : Pass) : Prop where
  results : ∀ (p : Place) (v : Value), s.results[p]? = some v → v.IsFlat
  spilled : ∀ (p : Place) (v : Value), s.spilled[p]? = some v → v.IsItem

variable {s : Pass} {books : Books} {index : Index} {p : Place} {v : Value}

lemma dirtyAnchorOver?_eq_none
    (h : ∀ a r, a ∈ s.dirty → s.anchors[a]? = some r → (a.area r).contains p = false) :
    s.dirtyAnchorOver? p = none := by
  rw [dirtyAnchorOver?, Option.map_eq_none_iff, List.find?_eq_none]
  rintro ⟨a, r⟩ ha hc
  simp only [Bool.and_eq_true] at hc
  have har := ExtTreeMap.mem_toList_iff_getElem?_eq_some.1 ha
  have hfree := h a r (ExtTreeSet.contains_iff_mem.1 hc.2) har
  rw [Place.area, Region.contains, hc.1.1.1, hc.1.1.2, hc.1.2] at hfree
  cases hfree

lemma Flat.store (h : s.Flat) (hv : v.IsFlat) : (s.store books index p v).Flat where
  results := results_of_store h.results hv trivial
  spilled := spilled_of_store h.spilled fun g hg => (hg ▸ hv : (Value.array g).IsFlat).2

end Pass

namespace Evaluator

open Eval

variable {snapshot : Snapshot} {scope : Scope} {pass : Pass}

lemma ofScalar_stored (p : Place) : snapshot.stored p = .ofScalar ((snapshot.books.value? p).getD .empty) := by
  rw [Snapshot.stored]
  cases snapshot.books.value? p <;> rfl

lemma exec_readCell {s : Session} (h : s.pass.Flat) (below : Evaluator) {p : Place} (hp : s.pass.Quiet p) :
    exec (readCell snapshot below p) scope s = (.ok (.ofScalar ((s.pass.reading snapshot.books).cell p)), s) := by
  rw [readCell, exec_get_bind, Pass.reading]
  simp only
  split
  · rfl
  · cases hr : s.pass.results[p]? with
    | some v => simp [(h.results p v hr).topLeft_eq]
    | none =>
      simp only [Table.contains_eq_false hp.1, Bool.false_eq_true, if_false, hp.2, settledValue]
      rw [exec_get_bind]
      cases hx : s.pass.spilled[p]? with
      | some v => simp [(h.spilled p v hx).ofScalar_toScalar]
      | none => simp [ofScalar_stored]

lemma reads_of_quiet {below : Evaluator} (h : pass.Flat) {refs : List Region} (hrefs : ∀ t ∈ refs, t.range.Bounded)
    (hquiet : ∀ t ∈ refs, ∀ q, t.contains q = true → pass.Quiet q) :
    Reads snapshot below scope pass refs (pass.reading snapshot.books) where
  cell t ht q hq s hs := by
    subst hs
    exact exec_readCell h below (hquiet t ht q hq)
  hasSheet _ _ := rfl
  bounded := hrefs

variable {p : Place} {e : Entry} {ρ : Reading} {below : Evaluator} {v : Value} {s s' : Session}

lemma exec_calculate_open (hp : p ∈ scope.cells) :
    exec (calculate snapshot below p) scope s = (.ok (.error .cycle), s) := by
  rw [calculate, exec_read_bind, if_pos (ExtTreeSet.contains_iff_mem.2 hp)]
  rfl

lemma exec_calculate_of_none (he : snapshot.formulas.cell? p = none) (hp : p ∉ scope.cells) :
    exec (calculate snapshot below p) scope s = (.ok (snapshot.stored p), s) := by
  rw [calculate, exec_read_bind, Table.contains_eq_false hp]
  simp only [Bool.false_eq_true, if_false, he]
  rfl

lemma exec_calculate_entered (he : snapshot.formulas.cell? p = some e) (hp : p ∉ scope.cells) :
    exec (calculate snapshot below p) scope s =
      match exec (below.value e.node) (scope.enterCell (snapshot.books.cursor p)) s with
      | (.error there, t) => (.error there, t)
      | (.ok v, t) =>
        if v.isPending then (.ok v, t)
        else
          (.ok ((t.pass.store snapshot.books snapshot.formulas p v).results[p]?.getD .blank),
            { t with pass := t.pass.store snapshot.books snapshot.formulas p v }) := by
  have hentered : exec (withReader (·.enterCell (snapshot.books.cursor p)) (below.value e.node)) scope s =
    exec (below.value e.node) (scope.enterCell (snapshot.books.cursor p)) s := rfl
  rw [calculate, exec_read_bind, Table.contains_eq_false hp]
  simp only [Bool.false_eq_true, if_false, he]
  rw [exec_bind, hentered]
  rcases exec (below.value e.node) (scope.enterCell (snapshot.books.cursor p)) s with ⟨there | v, t⟩
  · rfl
  · dsimp only
    split <;> rfl

lemma exec_calculate_of_isFlat (he : snapshot.formulas.cell? p = some e) (hp : p ∉ scope.cells) (hv : v.IsFlat)
    (hx : exec (below.value e.node) (scope.enterCell (snapshot.books.cursor p)) s = (.ok v, s')) :
    exec (calculate snapshot below p) scope s =
      (.ok ((s'.pass.store snapshot.books snapshot.formulas p v).results[p]?.getD .blank),
        { s' with pass := s'.pass.store snapshot.books snapshot.formulas p v }) := by
  rw [exec_calculate_entered he hp, hx]
  simp only [hv.isPending_eq, Bool.false_eq_true, if_false]

lemma exec_calculate_of_isPending (he : snapshot.formulas.cell? p = some e) (hp : p ∉ scope.cells)
    (hv : v.isPending = true)
    (hx : exec (below.value e.node) (scope.enterCell (snapshot.books.cursor p)) s = (.ok v, s')) :
    exec (calculate snapshot below p) scope s = (.ok v, s') := by
  rw [exec_calculate_entered he hp, hx]
  simp only [hv, if_true]

lemma breaksOff_calculate {I : Session → Prop} (he : snapshot.formulas.cell? p = some e) (hp : p ∉ scope.cells)
    (h : BreaksOff I (scope.enterCell (snapshot.books.cursor p)) (below.value e.node) s) :
    BreaksOff I scope (calculate snapshot below p) s := by
  obtain ⟨there, s', hx, hgeneration, hI⟩ := h
  exact ⟨there, s', by rw [exec_calculate_entered he hp, hx], hgeneration, hI⟩

variable (snapshot scope) in
/-- A cell whose formula reads nothing that is still to be calculated. -/
lemma exec_calculate {r : Registry} {stops : Prop} (hr : snapshot.registry.AmountsTo r stops 0)
    (he : snapshot.formulas.cell? p = some e) (hplain : e.node.Plain r) (hw : scope.waits = false) (hp : p ∉ scope.cells)
    (depth : Nat) (h : Reads snapshot (ofDepth snapshot depth) (scope.enterCell (snapshot.books.cursor p)) pass
      (referencesOf p.book p.sheet e.node) ρ) (s : Session) (hs : s.pass = pass) :
    (∃ (v : Value) (s' : Session), exec (calculate snapshot (ofDepth snapshot (depth + 1)) p) scope s = (.ok v, s') ∧
      s'.pass = pass.store snapshot.books snapshot.formulas p (ρ.value r p e.node) ∧
      s'.host.generations = s.host.generations) ∨
    stops ∧ BreaksOff (Steadily pass s.host.generations) scope
      (calculate snapshot (ofDepth snapshot (depth + 1)) p) s := by
  refine (exec_value_steady hr h hplain hw s hs).imp ?_ (And.imp_right (breaksOff_calculate he hp))
  rintro ⟨s', hx, rfl, hg⟩
  exact ⟨_, _, exec_calculate_of_isFlat he hp (Reading.value_flat hplain) hx, rfl, hg⟩

end Evaluator

end Spreadsheet
