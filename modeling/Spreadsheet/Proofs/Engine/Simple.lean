import Spreadsheet.Proofs.Engine.Commit
import Spreadsheet.Proofs.Formula.Parse

/-! Simple formulas, and engines that are only ever given such formulas. -/

namespace Spreadsheet

open Dependency Formula Text

namespace Formula.Node

/-- A node without a name, whole rows or columns, a range that only calculation puts together, a volatile
function, or a function that replaces errors. -/
def isSimple : Node → Bool
  | reference _ _ _ range => !range.isWholeColumns && !range.isWholeRows
  | name _ _ => false
  | binary _ op _ _ => op != .range
  | call _ f _ =>
    upper f != "IFERROR" && upper f != "IFNA" && !((Registry.builtin.find? f).any (·.volatile))
  | _ => true

lemma plain_of_isSimple {n : Node} (h : n.OnSheet) (hn : n.nodes.all isSimple = true) : n.Plain .builtin := by
  intro m hm
  have hsimple := List.all_eq_true.1 hn m hm
  cases m with
  | reference s book sheet range =>
    simp only [isSimple, Bool.and_eq_true, Bool.not_eq_true'] at hsimple
    have hrange := h s book sheet range hm
    exact ⟨hrange.1, hrange.bounded hsimple.1 hsimple.2⟩
  | name s x => cases hsimple
  | binary s op l r => simpa [isSimple, IsPlain] using hsimple
  | call s f args =>
    intro g hg
    simp only [isSimple, hg, Option.any_some, Bool.and_eq_true, bne_iff_ne, Bool.not_eq_true'] at hsimple
    exact Registry.steady_of_find? hg hsimple.2 hsimple.1.1 hsimple.1.2
  | _ => trivial

end Formula.Node

/-- The formula has its own text, and all nodes of its tree are simple. -/
def StoredFormula.isSimple (names : NameTable) (p : Place) (f : StoredFormula) : Bool :=
  f.hasText && (Node.parse { names, book := some p.book } f.text).nodes.all Node.isSimple

namespace StoredFormula

variable {names : NameTable} {p : Place} {f : StoredFormula}

lemma hasText_of_isSimple (h : f.isSimple names p = true) : f.hasText = true := by
  rw [isSimple, Bool.and_eq_true] at h
  exact h.1

lemma plainText_of_isSimple (h : f.isSimple names p = true) : PlainText .builtin names p f.text := by
  rw [isSimple, Bool.and_eq_true] at h
  exact Node.plain_of_isSimple (Node.onSheet_parse _ _ _) h.2

end StoredFormula

namespace Engine

/-- How an engine comes to be as it is: workbooks are loaded, cells replaced, anything declared to have changed,
and calculations run, in any order. -/
inductive Reached : Engine → Prop
  | load {e : Engine} {d : Dataset} (hr : e.registry = .builtin) (hd : d.Own) (ha : (Config.load d).Anchored)
      (hb : d.books.Proper)
      (hsimple : ∀ p f, d.books.formula? p = some f → f.isSimple d.books.nameTable p = true) : Reached (e.load d)
  | setCell {e e' : Engine} {p : Place} {cell : Cell} (h : Reached e)
      (hsimple : ∀ f, cell.formula = some f → f.isSimple e.config.names p = true) (he : e.setCell p cell = .ok e') :
      Reached e'
  | declare {e : Engine} {changes : Changes} (h : Reached e) (hx : changes.excluded = ∅) :
      Reached { e with config.changes := changes }
  | calculate {e : Engine} (h : Reached e) : Reached (e.calculate false).2

variable {e : Engine}

lemma Reached.plain (h : e.Reached) : e.registry = .builtin ∧ e.Plain := by
  induction h with
  | @load e d hr hd ha hb hsimple =>
    refine ⟨hr, plain_load hd ha hb (fun p f hf => StoredFormula.hasText_of_isSimple (hsimple p f hf)) ?_⟩
    intro p f hf
    rw [hr]
    exact StoredFormula.plainText_of_isSimple (hsimple p f hf)
  | @setCell e e' p cell _ hsimple he ih =>
    obtain ⟨hr, hplain⟩ := ih
    obtain ⟨hs, rfl⟩ := setCell_eq he fun f hf => StoredFormula.hasText_of_isSimple (hsimple f hf)
    refine ⟨hr, plain_setCell hplain hs fun f hf => ?_⟩
    rw [hr]
    exact StoredFormula.plainText_of_isSimple (hsimple f hf)
  | declare _ hx ih =>
    obtain ⟨hr, h⟩ := ih
    exact ⟨hr, hx, h.others, h.names, h.formulas, h.text, h.anchored, h.cell?, h.other?⟩
  | @calculate e _ ih =>
    obtain ⟨hr, hplain⟩ := ih
    obtain ⟨host, hcalculate, hplain⟩ := calculate_plain hplain
    have hregistry : ({ e with host }.commit e.report).registry = e.registry := registry_commit
    rw [hcalculate]
    dsimp only
    constructor
    · exact hregistry.trans hr
    · exact hplain

end Engine

end Spreadsheet
