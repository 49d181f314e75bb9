import Spreadsheet.Function.Builtin
import Spreadsheet.Proofs.Books
import Spreadsheet.Proofs.Evaluation.Footprint
import Spreadsheet.Proofs.Formula.Parse

/-! The references recorded for a formula cover what it reads, as long as no reference is made out of two others
and no two of its names are taken for one. -/

namespace Spreadsheet

open Dependency Formula Std Text

/-! What workbooks are apart from their cells. -/

/-- The ids, names and sizes of a workbook and its sheets, and its definitions. -/
def Workbook.frame (w : Workbook) : String × String × List DefinedName × List (String × String × Nat × Nat) :=
  (w.id, w.name, w.names, w.sheets.map fun s => (s.id, s.name, s.rowCount, s.colCount))

def Books.frame (b : Books) :
    ExtTreeMap String (String × String × List DefinedName × List (String × String × Nat × Nat)) :=
  b.byId.map fun _ w => w.frame

namespace Books

variable {b c : Books}

lemma frame_book? (k : String) : (b.book? k).map Workbook.frame = b.frame[k]? := by
  rw [frame, ExtTreeMap.getElem?_map]
  rfl

lemma definition?_congr (h : b.frame = c.frame) (k name : String) (sheet : Option String) :
    (b.book? k).bind (·.definition? name sheet) = (c.book? k).bind (·.definition? name sheet) := by
  have hbook : (b.book? k).map Workbook.frame = (c.book? k).map Workbook.frame := by
    rw [frame_book?, frame_book?, h]
  cases hb : b.book? k with
  | none =>
    rw [hb, Option.map_none, eq_comm, Option.map_eq_none_iff] at hbook
    rw [hbook]
  | some w =>
    rw [hb, Option.map_some, eq_comm, Option.map_eq_some_iff] at hbook
    obtain ⟨v, hc, hframe⟩ := hbook
    have hnames : v.names = w.names := congrArg (fun f => f.2.2.1) hframe
    rw [hc]
    simp only [Option.bind_some, Workbook.definition?, hnames]

lemma size_congr (h : b.frame = c.frame) (k sheet : String) :
    (b.sheet? k sheet).map (fun s => (s.rowCount, s.colCount)) =
      (c.sheet? k sheet).map fun s => (s.rowCount, s.colCount) := by
  have hsize : ∀ b : Books, (b.sheet? k sheet).map (fun s => (s.rowCount, s.colCount)) =
      (b.frame[k]?).bind fun f => (f.2.2.2.find? (·.1 == sheet)).map (·.2.2) := by
    intro b
    rw [← frame_book?, sheet?]
    cases b.book? k with
    | none => rfl
    | some w =>
      simp only [Option.bind_some, Option.map_some, Workbook.frame, Workbook.sheet?, List.find?_map, Option.map_map]
      rfl
  rw [hsize, hsize, h]

lemma depth_congr (h : b.frame = c.frame) {names : NameTable} {r : Registry} {index : Option Index} :
    ({ registry := r, books := b, names, index } : Snapshot).depth =
      ({ registry := r, books := c, names, index } : Snapshot).depth := by
  have hcount : ∀ b : Books, b.toList.foldl (fun n w => n + w.names.length) 0 =
      (b.frame.toList.map (·.2)).foldl (fun n f => n + f.2.2.1.length) 0 := by
    intro b
    have hframe : b.toList.map Workbook.frame = b.frame.toList.map (·.2) := by
      rw [toList, Table.values_eq, frame, ExtTreeMap.toList_map, List.map_map, List.map_map]
      rfl
    rw [← hframe, List.foldl_map]
    rfl
  simp only [Snapshot.depth, hcount, h]
  rfl

end Books

/-! The trees that a formula leads to. -/

namespace Dependency

section

variable {parse : DefinedName → Node} {book : Workbook} {sheet : String}

/-- Every name on the stack and in a definition has been met or is on the list, and nothing else is on the list. -/
structure Followed (parse : DefinedName → Node) (book : Workbook) (sheet : String) (met stack : List String)
    (l : List (String × Option Node)) : Prop where
  start : ∀ name ∈ stack, upper name ∈ met ∨ ∃ x ∈ l, x.1 = upper name
  bodies : ∀ x ∈ l, ∀ body, x.2 = some body → ∀ name ∈ namesOf body, upper name ∈ met ∨ ∃ y ∈ l, y.1 = upper name
  source : ∀ x ∈ l, ∃ name, x.1 = upper name ∧ x.2 = (book.definition? name (some sheet)).map parse ∧
    (name ∈ stack ∨ ∃ y ∈ l, ∃ body, y.2 = some body ∧ name ∈ namesOf body)

lemma Followed.cons {met stack : List String} {name : String} {body : Option Node} {l : List (String × Option Node)}
    (hb : body = (book.definition? name (some sheet)).map parse)
    (h : Followed parse book sheet (upper name :: met) ((body.elim [] namesOf).reverse ++ stack) l) :
    Followed parse book sheet met (name :: stack) ((upper name, body) :: l) := by
  have hmet : ∀ other, (upper other ∈ upper name :: met ∨ ∃ x ∈ l, x.1 = upper other) →
      upper other ∈ met ∨ ∃ x ∈ (upper name, body) :: l, x.1 = upper other := by
    rintro other (hm | ⟨x, hx, hxo⟩)
    · rcases List.mem_cons.1 hm with hm | hm
      · exact Or.inr ⟨_, List.mem_cons_self, hm.symm⟩
      · exact Or.inl hm
    · exact Or.inr ⟨x, List.mem_cons_of_mem _ hx, hxo⟩
  refine ⟨fun other ho => ?_, fun x hx body' hbody other ho => ?_, fun x hx => ?_⟩
  · rcases List.mem_cons.1 ho with rfl | ho
    · exact Or.inr ⟨_, List.mem_cons_self, rfl⟩
    · exact hmet other (h.start other (List.mem_append_right _ ho))
  · rcases List.mem_cons.1 hx with rfl | hx
    · obtain rfl : body = some body' := hbody
      exact hmet other (h.start other (List.mem_append_left _ (List.mem_reverse.2 ho)))
    · exact hmet other (h.bodies x hx body' hbody other ho)
  · rcases List.mem_cons.1 hx with rfl | hx
    · exact ⟨name, rfl, hb, Or.inl List.mem_cons_self⟩
    · obtain ⟨other, hkey, hdef, hfrom⟩ := h.source x hx
      refine ⟨other, hkey, hdef, ?_⟩
      rcases hfrom with hfrom | ⟨y, hy, body', hbody, ho⟩
      · rcases List.mem_append.1 hfrom with hfrom | hfrom
        · cases body with
          | none => simp at hfrom
          | some body => exact Or.inr ⟨_, List.mem_cons_self, body, rfl, List.mem_reverse.1 hfrom⟩
        · exact Or.inl (List.mem_cons_of_mem _ hfrom)
      · exact Or.inr ⟨y, List.mem_cons_of_mem _ hy, body', hbody, ho⟩

lemma followed_reached (met stack : List String) :
    Followed parse book sheet met stack (reached parse book sheet met stack) := by
  fun_induction reached parse book sheet met stack with
  | case1 met => constructor <;> simp
  | case2 met name stack key hkey ih =>
    refine ⟨?_, ih.bodies, fun x hx => ?_⟩
    · rintro other (_ | ⟨_, hother⟩)
      · exact Or.inl hkey
      · exact ih.start other hother
    · obtain ⟨other, hkey, hdef, hfrom⟩ := ih.source x hx
      exact ⟨other, hkey, hdef, hfrom.imp_left (List.mem_cons_of_mem _)⟩
  | case3 met name stack key hkey hd ih =>
    refine Followed.cons (by rw [hd]; rfl) ?_
    exact ih
  | case4 met name stack key hkey d hd body ih =>
    refine Followed.cons (by rw [hd]; rfl) ?_
    exact ih

end

namespace Surroundings

/-- The tree of a text in a workbook. -/
def tree (s : Surroundings) (book text : String) : Node := Node.parse { names := s.names, book := some book } text

/-- The tree of a formula and those of the definitions it leads to. -/
def trees (s : Surroundings) (book sheet text : String) : List Node :=
  s.tree book text :: match s.books.book? book with
    | some b => (reached (s.tree book ·.formula) b sheet [] (namesOf (s.tree book text)).reverse).filterMap (·.2)
    | none => []

end Surroundings

namespace Entry

variable {s : Surroundings} {book sheet text : String} {output : Region}

lemma node_ofText : (ofText s book sheet text output).node = s.tree book text := by
  simp only [ofText, Surroundings.tree]

lemma references_ofText :
    (ofText s book sheet text output).references = (s.trees book sheet text).flatMap (referencesOf book sheet) := by
  unfold ofText Surroundings.trees Surroundings.tree
  cases s.books.book? book with
  | none => simp [List.filterMap_map]
  | some b => simp

lemma volatile_ofText :
    (ofText s book sheet text output).volatile = (s.trees book sheet text).any (callsVolatile s.registry) := by
  unfold ofText Surroundings.trees Surroundings.tree
  cases s.books.book? book with
  | none => simp [List.filterMap_map]
  | some b => simp

end Entry

namespace Surroundings

variable {s : Surroundings} {p : Place} {text : String}

/-- The definition that a name has in a cell. -/
def definition? (s : Surroundings) (p : Place) (name : String) : Option DefinedName :=
  (s.books.book? p.book).bind (·.definition? name (some p.sheet))

/-- The names of a formula and of the definitions it leads to mean the same if they differ in case only. -/
def Unmixed (s : Surroundings) (p : Place) (text : String) : Prop :=
  ∀ t ∈ s.trees p.book p.sheet text, ∀ u ∈ s.trees p.book p.sheet text, ∀ name ∈ namesOf t, ∀ other ∈ namesOf u,
    upper name = upper other → s.definition? p name = s.definition? p other

lemma exists_followed {b : Workbook} (hb : s.books.book? p.book = some b) :
    ∃ l, s.trees p.book p.sheet text = s.tree p.book text :: l.filterMap (·.2) ∧
      Followed (s.tree p.book ·.formula) b p.sheet [] (namesOf (s.tree p.book text)).reverse l :=
  ⟨_, by simp only [trees, hb], followed_reached _ _⟩

lemma exists_text_of_mem_trees {t : Node} (ht : t ∈ s.trees p.book p.sheet text) : ∃ text, t = s.tree p.book text := by
  cases hb : s.books.book? p.book with
  | none =>
    simp only [trees, hb, List.mem_singleton] at ht
    exact ⟨text, ht⟩
  | some b =>
    obtain ⟨l, hl, hfollowed⟩ := @exists_followed s p text b hb
    rw [hl] at ht
    rcases List.mem_cons.1 ht with rfl | ht
    · exact ⟨text, rfl⟩
    · obtain ⟨x, hx, hbody⟩ := List.mem_filterMap.1 ht
      obtain ⟨name, -, hdef, -⟩ := hfollowed.source x hx
      rw [hbody, eq_comm, Option.map_eq_some_iff] at hdef
      obtain ⟨d, -, rfl⟩ := hdef
      exact ⟨_, rfl⟩

lemma definition_mem_trees (h : s.Unmixed p text) {t : Node} (ht : t ∈ s.trees p.book p.sheet text) {name : String}
    (hn : name ∈ namesOf t) {d : DefinedName} (hd : s.definition? p name = some d) :
    s.tree p.book d.formula ∈ s.trees p.book p.sheet text := by
  obtain ⟨b, hb, hname⟩ := Option.bind_eq_some_iff.1 hd
  obtain ⟨l, hl, hfollowed⟩ := @exists_followed s p text b hb
  have hmet : ∃ y ∈ l, y.1 = upper name := by
    rw [hl] at ht
    rcases List.mem_cons.1 ht with rfl | ht
    · exact (hfollowed.start name (List.mem_reverse.2 hn)).resolve_left List.not_mem_nil
    · obtain ⟨x, hx, hbody⟩ := List.mem_filterMap.1 ht
      exact (hfollowed.bodies x hx t hbody name hn).resolve_left List.not_mem_nil
  obtain ⟨y, hy, hkey⟩ := hmet
  obtain ⟨other, hother, hbody, hfrom⟩ := hfollowed.source y hy
  have hused : ∃ u ∈ s.trees p.book p.sheet text, other ∈ namesOf u := by
    rw [hl]
    rcases hfrom with hfrom | ⟨z, hz, u, hu, ho⟩
    · exact ⟨_, List.mem_cons_self, List.mem_reverse.1 hfrom⟩
    · exact ⟨u, List.mem_cons_of_mem _ (List.mem_filterMap.2 ⟨z, hz, hu⟩), ho⟩
  obtain ⟨u, hu, ho⟩ := hused
  -- the list knows the name by its upper case, so the definition found there is that of another name
  have hsame := h t ht u hu name hn other ho (hkey.symm.trans hother)
  have hdef : b.definition? other (some p.sheet) = some d := by
    rw [hsame, definition?, hb] at hd
    exact hd
  rw [hdef, Option.map_some] at hbody
  rw [hl]
  exact List.mem_cons_of_mem _ (List.mem_filterMap.2 ⟨y, hy, hbody⟩)

end Surroundings

end Dependency

variable {books books' : Books} {names : NameTable} {index : Option Index} {p : Place} {text : String} {output : Region}

/-- The trees of a formula that makes no reference out of two others. -/
lemma Snapshot.holds_trees (hvolatile : (Entry.ofText ⟨.builtin, books, names⟩ p.book p.sheet text output).volatile = false)
    (hnames : Surroundings.Unmixed ⟨.builtin, books, names⟩ p text)
    (hrange : ∀ t ∈ Surroundings.trees ⟨.builtin, books, names⟩ p.book p.sheet text, ∀ span l r,
      Node.binary span .range l r ∉ t.nodes) :
    ({ registry := .builtin, books, names, index } : Snapshot).Holds p
      {t | t ∈ Surroundings.trees ⟨.builtin, books, names⟩ p.book p.sheet text}
      (Entry.ofText ⟨.builtin, books, names⟩ p.book p.sheet text output).references := by
  refine ⟨fun t ht m hm => ?_, fun t ht => ?_, fun t ht name hn d hd => ?_⟩
  · cases m with
    | reference span book sheet range =>
      obtain ⟨text, rfl⟩ := Surroundings.exists_text_of_mem_trees ht
      exact (Node.onSheet_parse _ _ _ _ _ _ _ hm).1
    | binary span op l r =>
      rintro rfl
      exact hrange t ht span l r hm
    | call span f args =>
      intro g hg
      apply Registry.sealed_of_find? hg
      rw [Entry.volatile_ofText, List.any_eq_false] at hvolatile
      have hcalls := hvolatile t ht
      rw [callsVolatile, List.any_eq_true] at hcalls
      by_contra hv
      refine hcalls ⟨f, List.mem_filterMap.2 ⟨_, hm, rfl⟩, ?_⟩
      simpa [Registry.isVolatile, hg] using hv
    | _ => trivial
  · rw [Entry.references_ofText]
    exact fun r hr => List.mem_flatMap.2 ⟨t, ht, hr⟩
  · exact Surroundings.definition_mem_trees hnames ht hn hd

/-- The value of a formula depends on no stored values outside of the references recorded for it, unless it calls a
volatile function, makes a reference out of two others or takes two names for one. -/
theorem Interpreter.evaluate_covered (hframe : books.frame = books'.frame)
    (hlimit : ∀ book sheet s, books.sheet? book sheet = some s → s.rowCount ≤ maxRows ∧ s.colCount ≤ maxCols)
    (hvolatile : (Entry.ofText ⟨.builtin, books, names⟩ p.book p.sheet text output).volatile = false)
    (hnames : Surroundings.Unmixed ⟨.builtin, books, names⟩ p text)
    (hrange : ∀ t ∈ Surroundings.trees ⟨.builtin, books, names⟩ p.book p.sheet text, ∀ span l r,
      Node.binary span .range l r ∉ t.nodes)
    (hvalues : ∀ r ∈ (Entry.ofText ⟨.builtin, books, names⟩ p.book p.sheet text output).references, ∀ q,
      r.contains q = true → books.value? q = books'.value? q)
    {i : Interpreter} (hp : i.scope.cursor.place = p) (hdirty : i.session.pass.dirty = ∅) (hflat : i.session.pass.Flat)
    (hparsed : i.session.definitions = ∅) :
    let n := (Entry.ofText ⟨.builtin, books, names⟩ p.book p.sheet text output).node
    i.evaluate { registry := .builtin, books, names, index } n false =
      i.evaluate { registry := .builtin, books := books', names, index } n false := by
  refine evaluate_agreeOn (Snapshot.holds_trees hvolatile hnames hrange) ?_ (Books.depth_congr hframe) ?_ hp ?_
  · refine ⟨rfl, rfl, funext fun name => Books.definition?_congr hframe _ _ _, Books.size_congr hframe, hlimit, ?_⟩
    intro r hr q hq
    simp only [Snapshot.stored, hvalues r hr q hq]
  · refine ⟨hdirty, hflat, fun k n hn => ?_⟩
    simp [hparsed] at hn
  · rw [Entry.node_ofText]
    exact List.mem_cons_self

/-- A column of three texts. -/
def threeTexts (middle : String) : Books :=
  let sheet : Sheet := { id := "s", name := "S" }
  Books.ofList [{
    id := "b"
    name := "B"
    sheets := [((sheet.setValue 0 0 (.text "x")).setValue 1 0 (.text middle)).setValue 2 0 (.text "z")] }]

/-- The references of `(A1):(A3)` are two cells, but its value holds the cell between them too. -/
example :
    let snapshot (middle : String) : Snapshot :=
      { registry := .builtin, books := threeTexts middle, names := (threeTexts middle).nameTable }
    let node := (snapshot "y").tree "b" "=(A1):(A3)"
    let start : Interpreter := { scope := { cursor := { place := ⟨"b", "s", 0, 1⟩ } } }
    let value (middle : String) : Option String := (start.evaluate (snapshot middle) node false).1.map Value.display
    referencesOf "b" "s" node = [Region.cell "b" "s" 0 0, Region.cell "b" "s" 2 0] ∧ namesOf node = [] ∧
      value "y" ≠ value "another" := by
  decide +kernel

end Spreadsheet
