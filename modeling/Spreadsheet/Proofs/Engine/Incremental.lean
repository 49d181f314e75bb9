import Spreadsheet.Proofs.Engine.Recalculation
import Spreadsheet.Proofs.Engine.Simple

/-! Calculating what has changed gives what calculating everything would have given: after any edits of
cells, with calculations in between or not, the stored values are those of the edited workbooks loaded and
calculated from the beginning. -/

namespace Spreadsheet

open Dependency Formula Text

/-- What is done to workbooks between two looks at them. -/
inductive Step
  | setCell (p : Place) (cell : Cell)
  | calculate

namespace Step

/-- A formula that is put into a cell is simple. -/
def IsSimple (names : NameTable) : Step → Prop
  | setCell p cell => ∀ f, cell.formula = some f → f.isSimple names p = true
  | calculate => True

end Step

/-- Edits show in workbooks, calculations do not. -/
def Books.step (b : Books) : Step → Books
  | .setCell p cell => b.setCell p cell
  | .calculate => b

/-- An edit of a sheet that does not exist is refused and changes nothing. -/
def Engine.step (e : Engine) : Step → Engine
  | .setCell p cell =>
    match e.setCell p cell with
    | .ok e => e
    | .error _ => e
  | .calculate => (e.calculate false).2

/-- An engine whose workbooks are the given ones but for calculated values. -/
structure Engine.Follows (e : Engine) (t : NameTable) (b : Books) : Prop where
  still : e.Still
  registry : e.registry = .builtin
  names : e.config.names = t
  same : e.config.books.SameInputs b
  simple : ∀ p f, b.formula? p = some f → f.isSimple t p = true

namespace Engine

variable {e e' : Engine} {t : NameTable} {b : Books} {d : Dataset} {steps : List Step}

lemma Follows.setCell (h : e.Follows t b) {p : Place} {cell : Cell}
    (hcell : ∀ f, cell.formula = some f → f.isSimple t p = true) :
    (e.step (.setCell p cell)).Follows t (b.setCell p cell) := by
  have hsimple : ∀ q f, (b.setCell p cell).formula? q = some f → f.isSimple t q = true := by
    intro q f hf
    rw [Books.formula?_setCell] at hf
    split at hf
    · rename_i hq
      obtain ⟨_, _, hf⟩ := Option.bind_eq_some_iff.1 hf
      exact hq ▸ hcell f hf
    · exact h.simple q f hf
  cases he : e.setCell p cell with
  | ok e' =>
    have hown := fun f hf => StoredFormula.hasText_of_isSimple (hcell f hf)
    have htext : ∀ f, cell.formula = some f → PlainText e.registry e.config.names p f.text := by
      intro f hf
      rw [h.registry, h.names]
      exact StoredFormula.plainText_of_isSimple (hcell f hf)
    obtain ⟨hs, rfl⟩ := setCell_eq he hown
    simp only [step, he]
    exact ⟨still_setCell h.still hs htext, h.registry, h.names, h.same.setCell p cell, hsimple⟩
  | error x =>
    have hs : e.config.books.sheet? p.book p.sheet = none := by
      by_contra hs
      rw [Engine.setCell, if_neg (by simpa using hs)] at he
      cases he
    have hb : b.sheet? p.book p.sheet = none := by
      have hsome := Books.isSome_sheet?_congr h.same.outline p.book p.sheet
      rwa [hs, Option.isSome_none, eq_comm, Option.isSome_eq_false_iff, Option.isNone_iff_eq_none] at hsome
    simp only [step, he]
    exact ⟨h.still, h.registry, h.names, h.same.trans (Books.SameInputs.setCell_of_none hb cell), hsimple⟩

lemma Follows.calculate (h : e.Follows t b) : (e.calculate false).2.Follows t b := by
  obtain ⟨-, hstill, hsame, -, hnames, hregistry⟩ := still_calculate h.still
  exact ⟨hstill, hregistry.trans h.registry, hnames.trans h.names, hsame.trans h.same, h.simple⟩

lemma Follows.step (h : e.Follows t b) {s : Step} (hs : s.IsSimple t) :
    (e.step s).Follows t (b.step s) := by
  cases s with
  | setCell p cell => exact h.setCell hs
  | calculate => exact h.calculate

lemma Follows.run (h : e.Follows t b) (hs : ∀ s ∈ steps, s.IsSimple t) :
    (steps.foldl Engine.step e).Follows t (steps.foldl Books.step b) := by
  induction steps generalizing e b with
  | nil => exact h
  | cons s steps ih =>
    rw [List.forall_mem_cons] at hs
    exact ih (h.step hs.1) hs.2

lemma follows_load (hd : d.Bare) (hforce : d.force = true) (hb : d.books.Proper) (hr : e.registry = .builtin)
    (hspill : e.options.spillArrays = false)
    (hsimple : ∀ p f, d.books.formula? p = some f → f.isSimple d.books.nameTable p = true) :
    (e.load d).Follows d.books.nameTable d.books where
  still := by
    refine still_load hd hforce hspill (plain_load hd.toOwn (Config.anchored_load hd) hb
      (fun p f hf => StoredFormula.hasText_of_isSimple (hsimple p f hf)) ?_)
    intro p f hf
    rw [hr]
    exact StoredFormula.plainText_of_isSimple (hsimple p f hf)
  registry := hr
  names := Config.names_load hd.toOwn
  same := by
    rw [show (e.load d).config.books = (Config.load d).books from rfl, Config.books_load hd.toOwn]
    exact Books.SameInputs.refl _
  simple := hsimple

lemma Follows.load (h : e.Follows t b) (hb : b.Proper) (ht : b.nameTable = t) {c : Books} (hc : b.SameInputs c)
    (hr : e'.registry = .builtin) (hspill : e'.options.spillArrays = false) :
    (e'.load { books := c, force := true }).Follows t c := by
  have hnames : c.nameTable = t := (Books.nameTable_congr hc.outline.symm).trans ht
  have hfollows := follows_load (e := e') (d := { books := c, force := true }) ⟨⟨rfl, rfl, rfl, rfl, rfl⟩, rfl⟩ rfl
    (hb.congr hc.outline.symm) hr hspill ?_
  · rwa [hnames] at hfollows
  · intro p f hf
    rw [hnames]
    exact h.simple p f ((hc.formula? p).trans hf)

end Engine

end Spreadsheet
