import Spreadsheet.Proofs.Evaluation.Definition
import Spreadsheet.Proofs.Formula.Word

/-! Names that can be used. A formula that is nothing but such a name evaluates to what the definition says that was given
for it last. -/

namespace Spreadsheet

open Std Text Dependency Formula

namespace Workbook

variable {w w' : Workbook} {d : DefinedName} {sheet : String}

lemma define_eq_ok (h : w.define d = .ok w') : isDefinable d.name = true ∧
    w'.names = (w.names.filter fun n => !(sameLetters n.name d.name && n.scope == d.scope)) ++ [d] := by
  unfold define at h
  split at h
  · rename_i hname
    exact ⟨hname, Except.ok.inj h ▸ rfl⟩
  · cases h

/-- A definition is for a sheet if it is the sheet's own, or the workbook's where the sheet has none of its own. -/
def IsFor (w : Workbook) (d : DefinedName) (sheet : String) : Prop :=
  d.scope = some sheet ∨ d.scope = none ∧ ∀ n ∈ w.names, sameLetters n.name d.name = true → n.scope ≠ some sheet

lemma definition?_define (h : w.define d = .ok w') (hd : w.IsFor d sheet) : w'.definition? d.name (some sheet) = some d := by
  obtain ⟨-, hnames⟩ := define_eq_ok h
  have hnamed : w'.names.filter (sameLetters ·.name d.name) =
      (w.names.filter fun n => sameLetters n.name d.name && n.scope != d.scope) ++ [d] := by
    have hself : [d].filter (sameLetters ·.name d.name) = [d] := List.filter_cons_of_pos (beq_self_eq_true _)
    rw [hnames, List.filter_append, List.filter_filter, hself]
    congr 2
    funext n
    cases sameLetters n.name d.name <;> rfl
  have hfound : (w'.names.filter (sameLetters ·.name d.name)).find? (·.scope == d.scope) = some d := by
    have hlast : [d].find? (·.scope == d.scope) = some d := List.find?_cons_of_pos (beq_self_eq_true _)
    rw [hnamed, List.find?_append, List.find?_eq_none.2, Option.none_or, hlast]
    intro n hn
    obtain ⟨-, hboth⟩ := List.mem_filter.1 hn
    simpa using (Bool.and_eq_true_iff.1 hboth).2
  rcases hd with hown | ⟨hshared, hnone⟩
  · rw [definition?, Option.bind_some, ← hown, hfound, Option.some_or]
  · have hown : (w'.names.filter (sameLetters ·.name d.name)).find? (·.scope == some sheet) = none := by
      rw [hnamed, List.find?_eq_none]
      intro n hn
      rcases List.mem_append.1 hn with hn | hn
      · obtain ⟨hmem, hboth⟩ := List.mem_filter.1 hn
        simpa using hnone n hmem (Bool.and_eq_true_iff.1 hboth).1
      · rw [List.mem_singleton.1 hn, hshared]
        exact Bool.false_ne_true
    rw [definition?, Option.bind_some, hown, Option.none_or, ← hshared, hfound]

end Workbook

namespace Interpreter

variable {snapshot : Snapshot} {i : Interpreter} {w w' : Workbook} {d : DefinedName}

/-- What a name evaluates to, where it is usable at all. -/
theorem evaluate_define (hw : w.define d = .ok w') (hbook : snapshot.books.book? i.scope.cursor.place.book = some w')
    (hd : w.IsFor d i.scope.cursor.place.sheet) (husable : IsUsable d.name) (hapart : snapshot.books.NamesApart)
    (hkept : snapshot.Remembers i.session.definitions) (hclean : i.session.pass.dirty = ∅) (hnames : i.scope.names = ∅)
    (b : Binder) : (i.evaluate snapshot (Node.parse b ("=" ++ d.name)) false).1 =
      ((i.afresh ⟨i.scope.cursor.place.book, d.scope, upper d.name⟩).evaluate snapshot
        (snapshot.tree i.scope.cursor.place.book d) false).1 := by
  obtain ⟨span, hspan⟩ := (Node.parse_definable_iff b (Workbook.define_eq_ok hw).1).2 husable
  have hfound : snapshot.definition? i.scope.cursor.place d.name = some d := by
    rw [Snapshot.definition?, hbook]
    exact Workbook.definition?_define hw hd
  rw [hspan, evaluate_name hapart hkept hclean hnames, hfound]

end Interpreter

end Spreadsheet
