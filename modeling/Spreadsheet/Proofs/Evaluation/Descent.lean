import Spreadsheet.Proofs.Evaluation.Depth
import Spreadsheet.Proofs.Evaluation.Pass

/-! Evaluation ends, whatever refers to whatever. A formula leads to other formulas by descents only, into cells and
definitions that are not under evaluation; what is met again reads as `#CYCLE!`. So there are never more descents inside
one another than formulas and definitions, and what lies deeper makes no difference. -/

namespace Spreadsheet

open Std Text Dependency Formula Eval

namespace Scope

variable {s : Snapshot} {scope scope' : Scope} {k : Nat}

/-- The scopes of the formulas that a formula can lead to. -/
inductive Descent (s : Snapshot) (scope : Scope) : Scope → Prop
  | cell (p : Place) (e : Entry) : s.formulas.cell? p = some e → p ∉ scope.cells →
      Descent s scope (scope.enterCell (s.books.cursor p))
  | name (name : String) (d : DefinedName) : s.definition? scope.cursor.place name = some d →
      (⟨scope.cursor.place.book, d.scope, upper name⟩ : NameKey) ∉ scope.names →
      Descent s scope (scope.enterName ⟨scope.cursor.place.book, d.scope, upper name⟩)

/-- A number of descents, each inside the one before. -/
inductive Nested (s : Snapshot) : Nat → Scope → Scope → Prop
  | none (scope : Scope) : Nested s 0 scope scope
  | descent {k : Nat} {scope inner innermost : Scope} : scope.Descent s inner → Nested s k inner innermost →
      Nested s (k + 1) scope innermost

/-- The formulas and definitions that are not under evaluation. -/
def left (s : Snapshot) (scope : Scope) : Nat :=
  (s.formulas.cells.keys.filter (· ∉ scope.cells)).length + (s.definitionKeys.filter (· ∉ scope.names)).length

lemma left_le (s : Snapshot) (scope : Scope) : scope.left s ≤ s.formulas.size + s.definitionKeys.length := by
  rw [Index.size, ← ExtTreeMap.length_keys]
  exact Nat.add_le_add (List.length_filter_le _ _) (List.length_filter_le _ _)

lemma length_filter_insert_lt {α : Type} [Ord α] [TransOrd α] [LawfulEqOrd α] {t : ExtTreeSet α} {a : α} {l : List α}
    (hmem : a ∈ l) (ha : a ∉ t) : (l.filter (· ∉ t.insert a)).length < (l.filter (· ∉ t)).length := by
  have hsplit : l.filter (· ∉ t.insert a) = (l.filter (· ∉ t)).filter fun b => compare a b ≠ .eq := by
    rw [List.filter_filter]
    refine List.filter_congr fun b _ => Bool.eq_iff_iff.2 ?_
    simp [ExtTreeSet.mem_insert]
  rw [hsplit, List.length_filter_lt_length_iff_exists]
  exact ⟨a, List.mem_filter.2 ⟨hmem, by simpa using ha⟩, by simp⟩

lemma Descent.left_lt (h : scope.Descent s scope') : scope'.left s < scope.left s := by
  cases h with
  | cell p e he hp => exact Nat.add_lt_add_right (length_filter_insert_lt (Snapshot.mem_keys_of_cell? he) hp) _
  | name name d hd hk => exact Nat.add_lt_add_left (length_filter_insert_lt (Snapshot.mem_definitionKeys hd) hk) _

lemma Nested.add_left_le (h : Nested s k scope scope') : k + scope'.left s ≤ scope.left s := by
  induction h with
  | none scope => exact Nat.le_of_eq (Nat.zero_add _)
  | descent hstep _ ih =>
    have hlt := hstep.left_lt
    omega

end Scope

namespace Evaluator

variable {s : Snapshot} {e e' : Evaluator} {scope : Scope}

/-- Two evaluators do the same in a scope. -/
structure Agree (scope : Scope) (e e' : Evaluator) : Prop where
  evaluate : ∀ n t, exec (e.evaluate n) scope t = exec (e'.evaluate n) scope t
  materialize : ∀ v t, exec (e.materialize v) scope t = exec (e'.materialize v) scope t

/-- The level above an evaluator. -/
def above (s : Snapshot) (e : Evaluator) : Evaluator := ⟨evaluateWith s e, materializeWith s e⟩

/-- Evaluation that leaves to another evaluator what is met after a number of descents inside one another. -/
def atop (s : Snapshot) (floor : Evaluator) : (descents : Nat) → Evaluator
  | 0 => floor
  | descents + 1 => above s (atop s floor descents)

lemma ofDepth_eq_atop (s : Snapshot) (levels : Nat) : ofDepth s levels = atop s bottom levels := by
  induction levels with
  | zero => rfl
  | succ levels ih => rw [ofDepth, atop, ih, above]

lemma atop_add (s : Snapshot) (floor : Evaluator) (levels more : Nat) :
    atop s floor (levels + more) = atop s (atop s floor more) levels := by
  induction levels with
  | zero => rw [Nat.zero_add, atop]
  | succ levels ih => rw [Nat.add_right_comm, atop, atop, ih]

lemma alike_of_exec {x y : Eval Value} (h : ∀ t, exec x scope t = exec y scope t) :
    Alike (fun _ => True) (fun _ => True) scope x y :=
  fun t _ => ⟨h t, trivial, fun _ _ => trivial⟩

namespace Agree

lemma trans {e'' : Evaluator} (h : Agree scope e e') (h' : Agree scope e' e'') : Agree scope e e'' where
  evaluate n t := (h.evaluate n t).trans (h'.evaluate n t)
  materialize v t := (h.materialize v t).trans (h'.materialize v t)

lemma symm (h : Agree scope e e') : Agree scope e' e where
  evaluate n t := (h.evaluate n t).symm
  materialize v t := (h.materialize v t).symm

lemma value (h : Agree scope e e') (n : Node) (t : Session) :
    exec (e.value n) scope t = exec (e'.value n) scope t := by
  have halike := alike_bind (alike_of_exec (h.evaluate n)) fun v _ => alike_of_exec (h.materialize v)
  exact (halike t trivial).1

/-- What lies below is asked only where a descent leads. -/
lemma above (h : ∀ inner, scope.Descent s inner → Agree inner e e') : Agree scope (above s e) (above s e') := by
  have hcell : ∀ p, InStep (fun _ => True) scope (calculate s e p) (calculate s e' p) := by
    intro p
    refine inStep_calculate (Q := fun _ => True) (fun d hd hp => ?_) fun _ _ _ _ _ _ => trivial
    exact alike_of_exec ((h _ (.cell p d hd hp)).value d.node)
  have hname : ∀ name, InStep (fun _ => True) scope (evaluateName s e name) (evaluateName s e' name) := fun name =>
    inStep_evaluateName fun d n hd hk => alike_of_exec ((h _ (.name name d hd hk)).evaluate n)
  have hturns : Turns s e e' (fun _ => True) scope := turns_of_due fun p _ => hcell p
  constructor
  · exact fun n t => (inStep_evaluate hturns hname n t trivial).1
  · exact fun v t => (inStep_materialize hturns v t trivial).1

/-- What lies below a number of descents is asked only where so many lead. -/
lemma atop {k : Nat} (h : ∀ inner, Scope.Nested s k scope inner → Agree inner e e') :
    Agree scope (atop s e k) (atop s e' k) := by
  induction k generalizing scope with
  | zero => exact h scope (.none scope)
  | succ k ih => exact above fun inner hinner => ih fun innermost hnested => h innermost (.descent hinner hnested)

end Agree

/-- More levels than there are formulas and definitions not under evaluation make no difference, and neither does what
lies below them. -/
lemma agree_atop {levels more : Nat} (floor floor' : Evaluator) (hlevels : scope.left s < levels)
    (hmore : scope.left s < more) : Agree scope (atop s floor levels) (atop s floor' more) := by
  -- every descent takes one of the formulas and definitions that are left, so so many descents lead nowhere
  have hdeep : ∀ e e' : Evaluator, Agree scope (atop s e (scope.left s + 1)) (atop s e' (scope.left s + 1)) := by
    refine fun e e' => Agree.atop fun inner hnested => ?_
    have hle := hnested.add_left_le
    omega
  obtain ⟨rest, rfl⟩ := Nat.exists_eq_add_of_le hlevels
  obtain ⟨rest', rfl⟩ := Nat.exists_eq_add_of_le hmore
  rw [atop_add s floor, atop_add s floor']
  exact hdeep _ _

lemma agree_evaluator {levels : Nat} (floor : Evaluator) (hlevels : scope.left s < levels) :
    Agree scope (atop s floor levels) s.evaluator := by
  rw [Snapshot.evaluator, ofDepth_eq_atop]
  refine agree_atop floor bottom hlevels ?_
  have hle := scope.left_le s
  rw [Snapshot.depth_eq, ExtTreeMap.length_keys, ← Index.size]
  omega

lemma agree_above (s : Snapshot) (scope : Scope) : Agree scope s.evaluator (above s s.evaluator) := by
  have hlevels : atop s s.evaluator (scope.left s + 1) = above s (atop s s.evaluator (scope.left s)) := rfl
  refine (agree_evaluator s.evaluator (Nat.lt_succ_self _)).symm.trans ?_
  rw [Nat.succ_eq_add_one, hlevels]
  exact Agree.above fun inner hinner => agree_evaluator _ hinner.left_lt

/-- The recursion through cells and definitions has one solution. -/
theorem agree_of_solution (h : ∀ scope, Agree scope e (above s e)) (scope : Scope) : Agree scope e s.evaluator := by
  have hatop : ∀ levels scope, Agree scope e (atop s e levels) := by
    intro levels
    induction levels with
    | zero => exact fun _ => ⟨fun _ _ => rfl, fun _ _ => rfl⟩
    | succ levels ih => exact fun scope => (h scope).trans (Agree.above fun inner _ => ih inner)
  exact (hatop _ scope).trans (agree_evaluator e (Nat.lt_succ_self _))

/-- The evaluation of a formula gets a number of descents deep, each inside the one before: what it comes to depends on
what is found there. -/
def Descends (s : Snapshot) (n : Node) (scope : Scope) (t : Session) (descents : Nat) : Prop :=
  ∃ floor floor' : Evaluator,
    exec ((atop s floor descents).value n) scope t ≠ exec ((atop s floor' descents).value n) scope t

lemma Descends.nested {n : Node} {t : Session} {k : Nat} (h : Descends s n scope t k) :
    ∃ inner, Scope.Nested s k scope inner := by
  obtain ⟨floor, floor', hne⟩ := h
  by_contra hnone
  exact hne ((Agree.atop fun inner hinner => absurd ⟨inner, hinner⟩ hnone).value n t)

end Evaluator

/-- How the evaluation of a formula, started in a scope and a session, comes to its end. -/
structure Snapshot.Ends (s : Snapshot) (n : Node) (scope : Scope) (t : Session) : Prop where
  /-- There are never more descents inside one another than formulas and definitions. -/
  descents_le : ∀ k, Evaluator.Descends s n scope t k → k ≤ s.formulas.size + s.definitionKeys.length
  /-- What would be found deeper makes no difference. -/
  ends : ∀ floor, exec ((Evaluator.atop s floor (s.formulas.size + s.definitionKeys.length + 1)).value n) scope t =
    exec (s.evaluator.value n) scope t
  /-- The formulas that it leads to are evaluated in the same way. -/
  recursive : exec (s.evaluator.value n) scope t = exec ((Evaluator.above s s.evaluator).value n) scope t
  /-- A cell under evaluation is not entered again. -/
  cell : ∀ below p, p ∈ scope.cells → exec (Evaluator.calculate s below p) scope t = (.ok (.error .cycle), t)
  /-- It reads as what it would have been entered for. -/
  read : ∀ below p, p ∈ scope.cells → t.pass.results[p]? = none → p ∈ t.pass.dirty →
    exec (Evaluator.readCell s below p) scope t = (.ok (.error .cycle), t)
  /-- A definition under evaluation is not entered again. -/
  name : ∀ below name d, s.definition? scope.cursor.place name = some d →
    (⟨scope.cursor.place.book, d.scope, upper name⟩ : NameKey) ∈ scope.names →
      exec (Evaluator.evaluateName s below name) scope t = (.ok (.error .cycle), t)

namespace Evaluator

variable {s : Snapshot} {below : Evaluator} {scope : Scope} {t : Session} {p : Place} {name : String} {d : DefinedName}

lemma exec_readCell_open (hp : p ∈ scope.cells) (hresult : t.pass.results[p]? = none) (hdue : p ∈ t.pass.dirty) :
    exec (readCell s below p) scope t = (.ok (.error .cycle), t) := by
  rw [readCell, exec_get_bind]
  dsimp only
  split
  · rfl
  · rw [hresult, if_pos (ExtTreeSet.contains_iff_mem.2 hdue), exec_bind, exec_calculate_open hp]
    rfl

lemma exec_evaluateName_open (hd : s.definition? scope.cursor.place name = some d)
    (hk : (⟨scope.cursor.place.book, d.scope, upper name⟩ : NameKey) ∈ scope.names) :
    exec (evaluateName s below name) scope t = (.ok (.error .cycle), t) := by
  rw [Snapshot.definition?] at hd
  rw [evaluateName, exec_read_bind]
  dsimp only
  rw [hd]
  dsimp only
  rw [if_pos (ExtTreeSet.contains_iff_mem.2 hk)]
  rfl

end Evaluator

/-- Evaluation ends from every scope and session, whatever cells and definitions refer to. -/
theorem Snapshot.evaluation_ends (s : Snapshot) (n : Node) (scope : Scope) (t : Session) : s.Ends n scope t where
  descents_le k h := by
    obtain ⟨inner, hnested⟩ := h.nested
    have hle := hnested.add_left_le
    have hall := scope.left_le s
    omega
  ends floor := (Evaluator.agree_evaluator floor (Nat.lt_succ_of_le (scope.left_le s))).value n t
  recursive := (Evaluator.agree_above s scope).value n t
  cell _ _ hp := Evaluator.exec_calculate_open hp
  read _ _ hp hresult hdue := Evaluator.exec_readCell_open hp hresult hdue
  name _ _ _ hd hk := Evaluator.exec_evaluateName_open hd hk

end Spreadsheet
