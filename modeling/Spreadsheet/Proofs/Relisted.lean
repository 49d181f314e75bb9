import Mathlib.Data.Option.Basic
import Spreadsheet.Engine.Config
import Spreadsheet.Proofs.Books
import Spreadsheet.Proofs.Reordered

/-! Workbooks whose names are listed in another order. It does not show in what a name means, as long as names that agree up
to the case of `a`-`z` stay as they are among each other. Changed definitions list them so in whatever order they come, if no
two of them agree in this way. -/

namespace Spreadsheet

open Std Text

/-- The same workbook with another order of names, but not of those that agree up to the case of `a`-`z`. -/
structure Workbook.Relisted (w w' : Workbook) : Prop where
  id : w.id = w'.id
  name : w.name = w'.name
  sheets : w.sheets = w'.sheets
  perm : w.names.Perm w'.names
  named : ∀ name, w.names.filter (sameLetters ·.name name) = w'.names.filter (sameLetters ·.name name)

namespace Workbook

variable {w w' w'' : Workbook} {d d' : DefinedName}

namespace Relisted

lemma refl (w : Workbook) : w.Relisted w := ⟨rfl, rfl, rfl, .refl _, fun _ => rfl⟩

lemma trans (h : w.Relisted w') (h' : w'.Relisted w'') : w.Relisted w'' :=
  ⟨h.id.trans h'.id, h.name.trans h'.name, h.sheets.trans h'.sheets, h.perm.trans h'.perm,
    fun name => (h.named name).trans (h'.named name)⟩

lemma definition?_eq (h : w.Relisted w') (name : String) (sheet : Option String) :
    w.definition? name sheet = w'.definition? name sheet := by
  rw [definition?, definition?, h.named]

lemma sheet?_eq (h : w.Relisted w') (id : String) : w.sheet? id = w'.sheet? id := by rw [sheet?, sheet?, h.sheets]

lemma outline_eq (h : w.Relisted w') : w.outline = w'.outline := by rw [outline, outline, h.id, h.name, h.sheets]

lemma modifySheet (h : w.Relisted w') (id : String) (f : Sheet → Sheet) : (w.modifySheet id f).Relisted (w'.modifySheet id f) :=
  ⟨h.id, h.name, congrArg (modifySheetIn id f) h.sheets, h.perm, h.named⟩

end Relisted

/-- The workbook with a definition in place of those with the same name and scope. -/
def put (w : Workbook) (d : DefinedName) : Workbook :=
  { w with names := (w.names.filter fun n => !(sameLetters n.name d.name && n.scope == d.scope)) ++ [d] }

@[simp] lemma id_put (w : Workbook) (d : DefinedName) : (w.put d).id = w.id := rfl

@[simp] lemma name_put (w : Workbook) (d : DefinedName) : (w.put d).name = w.name := rfl

@[simp] lemma sheets_put (w : Workbook) (d : DefinedName) : (w.put d).sheets = w.sheets := rfl

lemma Relisted.put (h : w.Relisted w') (d : DefinedName) : (w.put d).Relisted (w'.put d) where
  id := h.id
  name := h.name
  sheets := h.sheets
  perm := (h.perm.filter _).append_right _
  named name := by
    rw [Workbook.put, Workbook.put, List.filter_append, List.filter_append, List.filter_comm, h.named name, List.filter_comm]

lemma relisted_put_put (w : Workbook) (h : sameLetters d.name d'.name = false) :
    ((w.put d).put d').Relisted ((w.put d').put d) := by
  have hnames : ∀ d d' : DefinedName, sameLetters d.name d'.name = false → ((w.put d).put d').names =
      ((w.names.filter fun n => !(sameLetters n.name d.name && n.scope == d.scope)).filter fun n =>
        !(sameLetters n.name d'.name && n.scope == d'.scope)) ++ [d, d'] := by
    intro d d' h
    rw [put, put, List.filter_append, List.append_assoc, List.filter_cons_of_pos (by rw [h]; rfl)]
    rfl
  have h' : sameLetters d'.name d.name = false := by rwa [sameLetters, Bool.beq_comm, ← sameLetters]
  -- At most one of the two has a given name.
  have hpair : ∀ name, [d, d'].filter (sameLetters ·.name name) = [d', d].filter (sameLetters ·.name name) := by
    intro name
    cases hd : sameLetters d.name name with
    | false => simp [List.filter_cons, hd]
    | true =>
      have hd' : sameLetters d'.name name = false := by
        rw [sameLetters, beq_eq_false_iff_ne] at h ⊢
        rw [sameLetters, beq_iff_eq] at hd
        exact fun heq => h (hd.trans heq.symm)
      simp [hd, hd']
  refine ⟨by simp, by simp, by simp, ?_, fun name => ?_⟩
  · rw [hnames d d' h, hnames d' d h', List.filter_comm]
    exact (List.Perm.swap d' d []).append_left _
  · rw [hnames d d' h, hnames d' d h', List.filter_comm, List.filter_append, List.filter_append, hpair]

end Workbook

namespace Config

variable {w w' : Workbook} {x y : String × String} {l l' : List (String × String)}

/-- A changed definition that gets into a workbook. -/
def IsWritten (x : String × String) : Prop := x.2.toList.all isBlank = false ∧ isDefinable x.1 = true

lemma define_of_isWritten (h : IsWritten x) (w : Workbook) : define w x.1 x.2 = w.put { name := x.1, refersTo := x.2 } := by
  rw [define, if_neg (Bool.eq_false_iff.1 h.1), Workbook.define, if_pos h.2]
  rfl

lemma define_of_not_isWritten (h : ¬ IsWritten x) (w : Workbook) : define w x.1 x.2 = w := by
  rw [define]
  split
  · rfl
  · rename_i hblank
    rw [Workbook.define, if_neg fun hname => h ⟨Bool.eq_false_iff.2 hblank, hname⟩]

lemma relisted_define (h : w.Relisted w') (x : String × String) : (define w x.1 x.2).Relisted (define w' x.1 x.2) := by
  by_cases hx : IsWritten x
  · rw [define_of_isWritten hx, define_of_isWritten hx]
    exact h.put _
  · rw [define_of_not_isWritten hx, define_of_not_isWritten hx]
    exact h

/-- No two of the definitions that get into a workbook have names that agree up to the case of `a`-`z`. -/
def NamesApart (l : List (String × String)) : Prop :=
  ∀ x ∈ l, ∀ y ∈ l, IsWritten x → IsWritten y → sameLetters x.1 y.1 = true → x = y

lemma relisted_define_define (w : Workbook) (h : IsWritten x → IsWritten y → sameLetters x.1 y.1 = true → x = y) :
    (define (define w x.1 x.2) y.1 y.2).Relisted (define (define w y.1 y.2) x.1 x.2) := by
  by_cases hx : IsWritten x
  · by_cases hy : IsWritten y
    · cases hxy : sameLetters x.1 y.1 with
      | true =>
        rw [h hx hy hxy]
        exact .refl _
      | false =>
        simp only [define_of_isWritten hx, define_of_isWritten hy]
        exact w.relisted_put_put hxy
    · simp only [define_of_not_isWritten hy]
      exact .refl _
  · simp only [define_of_not_isWritten hx]
    exact .refl _

/-- A workbook with changed definitions. -/
def defineEach (l : List (String × String)) (w : Workbook) : Workbook := l.foldl (fun w x => define w x.1 x.2) w

lemma relisted_defineEach (h : w.Relisted w') (l : List (String × String)) : (defineEach l w).Relisted (defineEach l w') := by
  induction l generalizing w w' with
  | nil => exact h
  | cons x l ih => exact ih (relisted_define h x)

lemma relisted_defineEach_of_perm (hperm : l.Perm l') (hl : NamesApart l) (w : Workbook) :
    (defineEach l w).Relisted (defineEach l' w) := by
  induction hperm generalizing w with
  | nil => exact .refl w
  | cons x _ ih => exact ih (fun y hy z hz => hl y (List.mem_cons_of_mem _ hy) z (List.mem_cons_of_mem _ hz)) _
  | swap x y l =>
    refine relisted_defineEach (relisted_define_define w ?_) l
    exact hl y List.mem_cons_self x (List.mem_cons_of_mem _ List.mem_cons_self)
  | trans hperm _ ih ih' =>
    exact (ih hl w).trans (ih' (fun x hx y hy => hl x (hperm.mem_iff.2 hx) y (hperm.mem_iff.2 hy)) w)

end Config

/-- Workbooks under the same ids, of which each is a relisted one. -/
def Books.Relisted (b b' : Books) : Prop := ∀ k, Option.Rel Workbook.Relisted (b.book? k) (b'.book? k)

namespace Books

variable {b b' b'' : Books}

namespace Relisted

lemma refl (b : Books) : b.Relisted b := by
  intro k
  cases b.book? k with
  | none => exact .none
  | some w => exact .some (.refl w)

lemma bind_eq {γ : Type} (h : b.Relisted b') {f : Workbook → Option γ} (hf : ∀ w w', w.Relisted w' → f w = f w') (k : String) :
    (b.book? k).bind f = (b'.book? k).bind f := by
  have hk := h k
  generalize b.book? k = w at hk ⊢
  generalize b'.book? k = w' at hk ⊢
  cases hk with
  | none => rfl
  | some hw => exact hf _ _ hw

lemma map_eq {γ : Type} (h : b.Relisted b') {f : Workbook → γ} (hf : ∀ w w', w.Relisted w' → f w = f w') (k : String) :
    (b.book? k).map f = (b'.book? k).map f := by
  rw [Option.map_eq_bind, Option.map_eq_bind]
  exact h.bind_eq (fun w w' hw => congrArg some (hf w w' hw)) k

lemma map_toList {γ : Type} (h : b.Relisted b') {f : Workbook → γ} (hf : ∀ w w', w.Relisted w' → f w = f w') :
    b.toList.map f = b'.toList.map f := by
  have hmap : b.byId.map (fun _ w => f w) = b'.byId.map fun _ w => f w := by
    refine ExtTreeMap.ext_getElem? fun k => ?_
    rw [ExtTreeMap.getElem?_map, ExtTreeMap.getElem?_map]
    exact h.map_eq hf k
  have hlist : ∀ b : Books, b.toList.map f = (b.byId.map fun _ w => f w).values := by
    intro b
    rw [toList, Table.values_eq, Table.values_eq, ExtTreeMap.toList_map, List.map_map, List.map_map]
    rfl
  rw [hlist, hlist, hmap]

lemma sheet?_eq (h : b.Relisted b') (book sheet : String) : b.sheet? book sheet = b'.sheet? book sheet :=
  h.bind_eq (fun _ _ hw => hw.sheet?_eq sheet) book

lemma definition?_eq (h : b.Relisted b') (book name : String) (sheet : Option String) :
    (b.book? book).bind (·.definition? name sheet) = (b'.book? book).bind (·.definition? name sheet) :=
  h.bind_eq (fun _ _ hw => hw.definition?_eq name sheet) book

lemma outline_eq (h : b.Relisted b') : b.outline = b'.outline := by
  refine ExtTreeMap.ext_getElem? fun k => ?_
  rw [outline, outline, ExtTreeMap.getElem?_map, ExtTreeMap.getElem?_map]
  exact h.map_eq (fun w w' hw => hw.outline_eq) k

lemma modifyBook (h : b.Relisted b') (k : String) {f g : Workbook → Workbook}
    (hf : ∀ w w', w.Relisted w' → (f w).Relisted (g w')) : (b.modifyBook k f).Relisted (b'.modifyBook k g) := by
  intro i
  have hi := h i
  simp only [book?, Books.modifyBook, ExtTreeMap.getElem?_modify, Std.compare_eq_iff_eq] at hi ⊢
  split
  · rename_i hk
    subst hk
    generalize b.byId[k]? = w at hi ⊢
    generalize b'.byId[k]? = w' at hi ⊢
    cases hi with
    | none => exact .none
    | some hw => exact .some (hf _ _ hw)
  · exact hi

lemma modifySheet (h : b.Relisted b') (book sheet : String) (f : Sheet → Sheet) :
    (b.modifySheet book sheet f).Relisted (b'.modifySheet book sheet f) :=
  h.modifyBook book fun _ _ hw => hw.modifySheet sheet f

end Relisted

lemma modifyBook_modifyBook (b : Books) (k : String) (f g : Workbook → Workbook) :
    (b.modifyBook k f).modifyBook k g = b.modifyBook k (g ∘ f) := by
  refine congrArg Books.mk (ExtTreeMap.ext_getElem? fun i => ?_)
  simp only [modifyBook, ExtTreeMap.getElem?_modify, Std.compare_eq_iff_eq]
  split <;> simp

lemma modifyBook_id (b : Books) (k : String) : b.modifyBook k id = b := by
  refine congrArg Books.mk (ExtTreeMap.ext_getElem? fun i => ?_)
  rw [ExtTreeMap.getElem?_modify]
  split
  · rename_i h
    rw [Std.compare_eq_iff_eq.1 h, Option.map_id, id]
  · rfl

lemma modifyBook_comm (b : Books) {k i : String} (h : k ≠ i) (f g : Workbook → Workbook) :
    (b.modifyBook k f).modifyBook i g = (b.modifyBook i g).modifyBook k f := by
  refine congrArg Books.mk (ExtTreeMap.ext_getElem? fun j => ?_)
  simp only [modifyBook, ExtTreeMap.getElem?_modify, Std.compare_eq_iff_eq]
  grind

end Books

namespace Config

lemma foldl_modifyBook (l : List (String × String)) (b : Books) (k : String) :
    l.foldl (fun b x => b.modifyBook k (define · x.1 x.2)) b = b.modifyBook k (defineEach l) := by
  induction l generalizing b with
  | nil => exact (b.modifyBook_id k).symm
  | cons x l ih =>
    rw [List.foldl_cons, ih, Books.modifyBook_modifyBook]
    rfl

lemma defineAll_eq (b : Books) (names : PerSheet String) :
    defineAll b names = names.foldl (fun b x => b.modifyBook x.1 (defineEach x.2)) b :=
  congrArg (fun f => names.foldl f b) (funext₂ fun b x => foldl_modifyBook x.2 b x.1)

theorem relisted_defineAll {names names' : PerSheet String} (h : Reordered (Reordered (· = ·)) names names')
    (hapart : ∀ x ∈ names, NamesApart x.2) (b : Books) : (defineAll b names).Relisted (defineAll b names') := by
  rw [defineAll_eq, defineAll_eq]
  refine h.foldl_rel (fun b b' x entries hx hb hentries => ?_) (fun b x y hxy => b.modifyBook_comm hxy _ _) (.refl b)
  refine hb.modifyBook x.1 fun w w' hw => (relisted_defineEach hw x.2).trans ?_
  exact relisted_defineEach_of_perm hentries.perm (hapart x hx) w'

/-- Of names that agree the one that comes last stays. -/
example :
    let b : Books := Books.ofList [{ id := "b", name := "B" }]
    let meaning (names : PerSheet String) : Option String :=
      (((defineAll b names).book? "b").bind (·.definition? "Rate" none)).map (·.refersTo)
    meaning [("b", [("Rate", "1"), ("RATE", "2")])] = some "2" ∧ meaning [("b", [("RATE", "2"), ("Rate", "1")])] = some "1" := by
  decide +kernel

end Config

end Spreadsheet
