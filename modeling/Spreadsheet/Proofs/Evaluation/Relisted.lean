import Spreadsheet.Proofs.Evaluation.Once
import Spreadsheet.Proofs.Relisted

/-! Workbooks whose names are listed in another order: formulas mention the same, and evaluate alike in every scope and session. -/

namespace Spreadsheet

open Std Text Dependency Formula Eval

namespace Dependency

variable {w w' : Workbook} {books books' : Books} {names : NameTable} {r : Registry}

lemma reached_congr {sheet : String} (h : ∀ name, w.definition? name (some sheet) = w'.definition? name (some sheet))
    (parse : DefinedName → Node) (met stack : List String) : reached parse w sheet met stack = reached parse w' sheet met stack := by
  fun_induction reached parse w sheet met stack with
  | case1 met => rw [reached]
  | case2 met name stack key hkey ih => rw [reached, if_pos hkey, ih]
  | case3 met name stack key hkey hd ih =>
    rw [reached, if_neg hkey]
    split
    · rw [ih]
    · rename_i hd'
      rw [← h, hd] at hd'
      cases hd'
  | case4 met name stack key hkey d hd body ih =>
    rw [reached, if_neg hkey]
    split
    · rename_i hd'
      rw [← h, hd] at hd'
      cases hd'
    · rename_i hd'
      rw [← h, hd] at hd'
      obtain rfl := Option.some.inj hd'
      rw [ih]

/-- Of the workbooks analysis asks for no more than what their names stand for. -/
lemma Entry.ofText_of_definitions (h : ∀ k, Option.Rel (fun w w' : Workbook => ∀ name sheet, w.definition? name sheet =
    w'.definition? name sheet) (books.book? k) (books'.book? k)) (book sheet text : String) (output : Region) :
    Entry.ofText ⟨r, books, names⟩ book sheet text output = Entry.ofText ⟨r, books', names⟩ book sheet text output := by
  have hbook := h book
  unfold Entry.ofText
  dsimp only
  generalize books.book? book = w at hbook ⊢
  generalize books'.book? book = w' at hbook ⊢
  cases hbook with
  | none => rfl
  | some hw => simp only [reached_congr fun name => hw name (some sheet)]

lemma Entry.ofText_relisted (h : books.Relisted books') (book sheet text : String) (output : Region) :
    Entry.ofText ⟨r, books, names⟩ book sheet text output = Entry.ofText ⟨r, books', names⟩ book sheet text output := by
  refine ofText_of_definitions (fun k => ?_) book sheet text output
  have hk := h k
  generalize books.book? k = w at hk ⊢
  generalize books'.book? k = w' at hk ⊢
  cases hk with
  | none => exact .none
  | some hw => exact .some hw.definition?_eq

end Dependency

namespace Snapshot

variable {snapshot : Snapshot} {b : Books}

/-- The snapshot over other workbooks. -/
def relist (snapshot : Snapshot) (b : Books) : Snapshot := { snapshot with books := b }

lemma beside_relist (h : snapshot.books.Relisted b) : snapshot.Beside (snapshot.relist b) where
  sheet? book sheet := (h.sheet?_eq book sheet).symm
  definition? p name := (h.definition?_eq p.book name _).symm
  index := rfl
  depth := by
    have hlengths := h.map_toList (f := fun w => w.names.length) fun w w' hw => hw.perm.length_eq
    have hsum : ∀ b : Books, b.toList.foldl (fun n w => n + w.names.length) 0 =
        (b.toList.map fun w => w.names.length).foldl (fun n m => n + m) 0 := fun b => List.foldl_map.symm
    rw [depth, depth, hsum, hsum, hlengths]
    rfl

end Snapshot

namespace Relisting

variable {snapshot : Snapshot} {b : Books} {scope : Scope} {α β : Type} {R : α → α → Prop} {R' : β → β → Prop} {x y : Eval α}

/-- Both evaluations end in the same session, with what goes together, or break off in the same scope. -/
inductive Ends {α : Type} (R : α → α → Prop) : Except Scope α × Session → Except Scope α × Session → Prop
  | ok {a b : α} (hab : R a b) (s : Session) : Ends R (.ok a, s) (.ok b, s)
  | error (there : Scope) (s : Session) : Ends R (.error there, s) (.error there, s)

def Holds {α : Type} (R : α → α → Prop) (scope : Scope) (x y : Eval α) : Prop := ∀ s, Ends R (exec x scope s) (exec y scope s)

lemma holds_bind {f g : α → Eval β} (hx : Holds R scope x y) (hf : ∀ a b, R a b → Holds R' scope (f a) (g b)) :
    Holds R' scope (x >>= f) (y >>= g) := by
  intro s
  have hends := hx s
  rw [exec_bind, exec_bind]
  generalize exec x scope s = e at hends ⊢
  generalize exec y scope s = e' at hends ⊢
  cases hends with
  | ok hab s => exact hf _ _ hab s
  | error there s => exact .error there s

lemma holds_self (h : ∀ a, R a a) (scope : Scope) (x : Eval α) : Holds R scope x x := by
  intro s
  rcases exec x scope s with ⟨there | a, t⟩
  · exact .error there t
  · exact .ok (h a) t

/-- The same values. -/
abbrev Values : Value → Value → Prop := Value.Like (fun _ => True) fun _ _ => False

lemma holds_call {start count : Nat} {name : String} {arguments arguments' : FunctionDef → Eval (List (ArgumentRule × Value))}
    (h : ∀ f, Holds (List.Forall₂ (SameRule Values)) scope (arguments f) (arguments' f)) :
    Holds Values scope (Evaluator.call snapshot start name count arguments)
      (Evaluator.call (snapshot.relist b) start name count arguments') := by
  have hsame : ∀ x : Eval Value, Holds Values scope x x := holds_self (fun _ => .inl ⟨rfl, trivial⟩) scope
  unfold Evaluator.call
  intro s
  rw [exec_read_bind, exec_read_bind]
  revert s
  extract_lets key made made'
  have hmade : Holds Values scope (made ()) (made' ()) := by
    dsimp only [made, made', Snapshot.relist]
    cases snapshot.registry.find? name with
    | none => exact hsame _
    | some f =>
      dsimp only
      split
      · exact hsame _
      · refine holds_bind (h f) fun args args' hargs => ?_
        obtain rfl := SameRule.eq hargs
        exact hsame _
  change Holds Values scope (if scope.waits = true then _ else _) (if scope.waits = true then _ else _)
  split
  · intro s
    rw [exec_get_bind, exec_get_bind]
    cases s.answers[key]? with
    | none => exact hmade s
    | some v => exact hsame _ s
  · exact hmade

/-- The likeness that consists in doing the same. -/
def likeness (h : snapshot.books.Relisted b) : Likeness snapshot (snapshot.relist b) where
  strict := False
  sound _ := True
  handles _ _ := False
  Holds _ R scope x y := Holds R scope x y
  toBeside := Snapshot.beside_relist h
  kept := Value.kept_true
  ret hab s := .ok hab s
  bind := holds_bind
  widen h _ := h
  ofRead {_ _ _ scope _ _} h := h scope.origin scope.origin scope.generation scope.generation
  ofGet h s := h s s rfl s.pass.only_true s
  store _ _ := holds_self (fun _ => trivial) _ _
  enterCell _ h := h
  enterName _ h := h
  definition _ _ := holds_self (fun _ => ⟨rfl, False.elim⟩) _ _
  call _ h := holds_call fun f => h f f rfl

lemma eq_of_holds {x y : Eval Value} (h : ∀ scope, Holds Values scope x y) : x = y := by
  refine funext fun scope => funext fun s => ?_
  have hends := h scope s
  change exec x scope s = exec y scope s
  generalize exec x scope s = e at hends ⊢
  generalize exec y scope s = e' at hends ⊢
  cases hends with
  | ok hab s => rw [hab.eq]
  | error there s => rfl

end Relisting

namespace Snapshot

variable {snapshot : Snapshot} {b : Books} (h : snapshot.books.Relisted b)

include h

lemma value_relist (n : Node) : (snapshot.relist b).evaluator.value n = snapshot.evaluator.value n := by
  refine (Relisting.eq_of_holds fun scope => ?_).symm
  exact ((Relisting.likeness h).under_evaluator False.elim).value scope False.elim

lemma cellAttempt_relist (p : Place) : Interpreter.cellAttempt (snapshot.relist b) p = Interpreter.cellAttempt snapshot p := by
  refine (Relisting.eq_of_holds fun scope => ?_).symm
  exact Likeness.holds_cellAttempt ((Relisting.likeness h).under_evaluator False.elim) p

end Snapshot

namespace Interpreter

variable {snapshot : Snapshot} {b : Books} (h : snapshot.books.Relisted b) (i : Interpreter)

include h

lemma evaluate_relist (n : Node) (waits : Bool) : i.evaluate (snapshot.relist b) n waits = i.evaluate snapshot n waits := by
  rw [evaluate, evaluate, Snapshot.value_relist h]

lemma evaluateCell_relist (p : Place) (waits : Bool) :
    i.evaluateCell (snapshot.relist b) p waits = i.evaluateCell snapshot p waits := by
  have hkeep : ∀ index, keepResult (snapshot.relist b).books index p = keepResult snapshot.books index p := by
    intro index
    funext a
    obtain ⟨_ | v, j⟩ := a
    · rfl
    · rw [keepResult, keepResult, Pass.store_congr (Snapshot.beside_relist h).cell?_eq]
  simp only [evaluateCell_eq, Snapshot.cellAttempt_relist h, hkeep]
  rfl

lemma recordResult_relist (p : Place) (v : Value) :
    i.recordResult (snapshot.relist b) p v = i.recordResult snapshot p v := by
  rw [recordResult, recordResult, (Snapshot.beside_relist h).store_eq]

end Interpreter

end Spreadsheet
