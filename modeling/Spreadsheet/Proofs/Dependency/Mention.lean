import Spreadsheet.Proofs.Dependency.Plan
import Spreadsheet.Proofs.Evaluation.Coverage

/-! What is recorded for a formula: the ranges, the names and the volatile functions of the definitions that it leads to count as
its own, sheet names only where they are written in the formula itself. -/

namespace Spreadsheet

open Dependency Formula Std Text

namespace Dependency

lemma mem_sorted {names : List String} {name : String} : name ∈ sorted names ↔ name ∈ names := by
  have hfold : ∀ set : ExtTreeSet String, name ∈ names.foldl (fun set name => set.insert name) set ↔ name ∈ names ∨ name ∈ set := by
    induction names with
    | nil => simp
    | cons other names ih =>
      intro set
      rw [List.foldl_cons, ih, ExtTreeSet.mem_insert, Std.compare_eq_iff_eq, List.mem_cons]
      grind
  rw [sorted, ExtTreeSet.mem_toList, hfold]
  simp

lemma reached_spec {parse : DefinedName → Node} {book : Workbook} {sheet : String} {named : String → Prop} {good : Node → Prop}
    (hbody : ∀ name d, named name → book.definition? name (some sheet) = some d → good (parse d))
    (hname : ∀ t, good t → ∀ name ∈ namesOf t, named name) {met stack : List String} (hstack : ∀ name ∈ stack, named name) :
    ∀ x ∈ reached parse book sheet met stack, (∃ name, named name ∧ x.1 = upper name) ∧ ∀ t, x.2 = some t → good t := by
  fun_induction reached parse book sheet met stack with
  | case1 => simp
  | case2 met name stack key _ ih => exact ih (List.forall_mem_cons.1 hstack).2
  | case3 met name stack key _ _ ih =>
    obtain ⟨hnamed, hstack⟩ := List.forall_mem_cons.1 hstack
    exact List.forall_mem_cons.2 ⟨⟨⟨name, hnamed, rfl⟩, by simp⟩, ih hstack⟩
  | case4 met name stack key _ d hd body ih =>
    obtain ⟨hnamed, hstack⟩ := List.forall_mem_cons.1 hstack
    have hgood : good body := hbody name d hnamed hd
    refine List.forall_mem_cons.2 ⟨⟨⟨name, hnamed, rfl⟩, fun t ht => Option.some.inj ht ▸ hgood⟩, ih ?_⟩
    exact List.forall_mem_append.2 ⟨fun other hother => hname body hgood other (List.mem_reverse.1 hother), hstack⟩

namespace Surroundings

variable {s : Surroundings} {p : Place} {text name : String} {t : Node}

/-- The trees that a formula in a cell leads to: its own, and those of the definitions that the names in them have there. -/
inductive Leads (s : Surroundings) (p : Place) (text : String) : Node → Prop
  | self : Leads s p text (s.tree p.book text)
  | definition {t : Node} {name : String} {d : DefinedName} (h : Leads s p text t) (hname : name ∈ namesOf t)
      (hd : s.definition? p name = some d) : Leads s p text (s.tree p.book d.formula)

def Mentions (s : Surroundings) (p : Place) (text name : String) : Prop := ∃ t, s.Leads p text t ∧ name ∈ namesOf t

/-- The names recorded for a formula, each with the tree of its definition. -/
def followed (s : Surroundings) (book sheet text : String) : List (String × Option Node) :=
  match s.books.book? book with
  | some b => reached (s.tree book ·.formula) b sheet [] (namesOf (s.tree book text)).reverse
  | none => (namesOf (s.tree book text)).map (upper · , none)

lemma trees_eq : s.trees p.book p.sheet text = s.tree p.book text :: (s.followed p.book p.sheet text).filterMap (·.2) := by
  rw [trees, followed]
  cases s.books.book? p.book with
  | none => simp [List.filterMap_map]
  | some b => rfl

lemma followed_spec : ∀ x ∈ s.followed p.book p.sheet text,
    (∃ name, s.Mentions p text name ∧ x.1 = upper name) ∧ ∀ t, x.2 = some t → s.Leads p text t := by
  have hself : ∀ name ∈ namesOf (s.tree p.book text), s.Mentions p text name := fun name hname => ⟨_, .self, hname⟩
  rw [followed]
  cases hb : s.books.book? p.book with
  | none =>
    intro x hx
    obtain ⟨name, hname, rfl⟩ := List.mem_map.1 hx
    exact ⟨⟨name, hself name hname, rfl⟩, nofun⟩
  | some b =>
    refine reached_spec ?_ (fun t ht name hname => ⟨t, ht, hname⟩) fun name hname => hself name (List.mem_reverse.1 hname)
    rintro name d ⟨t, ht, hname⟩ hd
    exact .definition ht hname (by rwa [definition?, hb, Option.bind_some])

lemma leads_of_mem_trees (h : t ∈ s.trees p.book p.sheet text) : s.Leads p text t := by
  rw [trees_eq] at h
  rcases List.mem_cons.1 h with rfl | h
  · exact .self
  · obtain ⟨x, hx, ht⟩ := List.mem_filterMap.1 h
    exact (followed_spec x hx).2 t ht

/-- No tree is missed, as long as no two names are taken for one. -/
lemma mem_trees_iff (h : s.Unmixed p text) : t ∈ s.trees p.book p.sheet text ↔ s.Leads p text t := by
  refine ⟨leads_of_mem_trees, fun ht => ?_⟩
  induction ht with
  | self => exact List.mem_cons_self
  | definition _ hname hd ih => exact definition_mem_trees h ih hname hd

lemma mem_followed_of_mentions (h : s.Unmixed p text) (hname : s.Mentions p text name) :
    ∃ x ∈ s.followed p.book p.sheet text, x.1 = upper name := by
  obtain ⟨t, ht, hmem⟩ := hname
  have ht := (mem_trees_iff h).2 ht
  rw [trees_eq] at ht
  cases hb : s.books.book? p.book with
  | none =>
    have hlist : s.followed p.book p.sheet text = (namesOf (s.tree p.book text)).map (upper · , none) := by
      simp only [followed, hb]
    rw [hlist] at ht ⊢
    obtain rfl : t = s.tree p.book text := by simpa [List.filterMap_map] using ht
    exact ⟨_, List.mem_map_of_mem hmem, rfl⟩
  | some b =>
    have hlist : s.followed p.book p.sheet text =
      reached (s.tree p.book ·.formula) b p.sheet [] (namesOf (s.tree p.book text)).reverse := by simp only [followed, hb]
    rw [hlist] at ht ⊢
    obtain ⟨hstart, hbodies, -⟩ : Followed (s.tree p.book ·.formula) b p.sheet [] (namesOf (s.tree p.book text)).reverse _ :=
      followed_reached _ _
    rcases List.mem_cons.1 ht with rfl | ht
    · exact (hstart name (List.mem_reverse.2 hmem)).resolve_left List.not_mem_nil
    · obtain ⟨x, hx, hbody⟩ := List.mem_filterMap.1 ht
      exact (hbodies x hx t hbody name hmem).resolve_left List.not_mem_nil

end Surroundings

namespace Entry

variable {s : Surroundings} {p : Place} {text : String} {output : Region}

lemma names_ofText : (ofText s p.book p.sheet text output).names = sorted ((s.followed p.book p.sheet text).map (·.1)) := by
  unfold ofText Surroundings.followed Surroundings.tree
  rfl

/-- The entry of a formula whose names are not taken for one another has the ranges, the names and the volatile functions of all
trees that the formula leads to, and the sheet names of its own text. -/
theorem ofText_spec (h : s.Unmixed p text) :
    (∀ r, r ∈ (ofText s p.book p.sheet text output).references ↔
      ∃ t, s.Leads p text t ∧ r ∈ referencesOf p.book p.sheet t) ∧
    (∀ key, key ∈ (ofText s p.book p.sheet text output).names ↔ ∃ name, s.Mentions p text name ∧ key = upper name) ∧
    ((ofText s p.book p.sheet text output).volatile = true ↔ ∃ t, s.Leads p text t ∧ callsVolatile s.registry t = true) ∧
    ∀ key, key ∈ (ofText s p.book p.sheet text output).sheetNames ↔ key ∈ sheetNamesOf text := by
  refine ⟨fun r => ?_, fun key => ?_, ?_, fun key => mem_sorted⟩
  · rw [references_ofText, List.mem_flatMap]
    simp only [Surroundings.mem_trees_iff h]
  · rw [names_ofText, mem_sorted, List.mem_map]
    constructor
    · rintro ⟨x, hx, rfl⟩
      exact (Surroundings.followed_spec x hx).1
    · rintro ⟨name, hname, rfl⟩
      exact Surroundings.mem_followed_of_mentions h hname
  · rw [volatile_ofText, List.any_eq_true]
    simp only [Surroundings.mem_trees_iff h]

end Entry

/-- A formula is planned if a range in one of the trees that it leads to has changed, a name in one of them, or the name of a sheet
that is written in the formula itself. -/
theorem Plan.mem_make_of_mentioned {i : Index} {features : List Feature} {c : Changes} {s : Surroundings} {p : Place}
    {text : String} {output : Region} (he : i.cell? p = some (Entry.ofText s p.book p.sheet text output)) (hp : p ∉ c.excluded)
    (hnames : s.Unmixed p text)
    (h : (∃ t, s.Leads p text t ∧ ∃ r ∈ referencesOf p.book p.sheet t, ∃ w ∈ c.ranges, r.overlaps w = true) ∨
      (∃ name, s.Mentions p text name ∧ (p.book, upper name) ∈ c.names) ∨
        ∃ key ∈ sheetNamesOf text, ∃ book, (book, key) ∈ c.sheetNames) :
    p ∈ (Plan.make i features c).cells ∨ p ∈ (Plan.make i features c).cycles := by
  obtain ⟨hreferences, hkeys, -, hsheets⟩ := Entry.ofText_spec hnames
  have hdirty : .cell p ∈ dirty i features c := by
    refine closed_dirty.cell p _ he hp ?_
    rcases h with ⟨t, ht, r, hr, w, hw, hover⟩ | ⟨name, hname, hchanged⟩ | ⟨key, hkey, book, hchanged⟩
    · exact .inr (.inr ⟨w, .inl hw, r, (hreferences r).2 ⟨t, ht, hr⟩, hover⟩)
    · exact .inl (.inr (.inr (.inl ⟨_, hchanged, rfl, (hkeys _).2 ⟨name, hname, rfl⟩⟩)))
    · exact .inl (.inr (.inr (.inr ⟨_, hchanged, (hsheets key).2 hkey⟩)))
  rw [mem_cells, mem_cycles, ← and_or_left, or_comm]
  exact ⟨hdirty, em _⟩

/-- The name `N` stands for a cell of the sheet `T`. -/
def farCell : DefinedName := { name := "N", refersTo := "=T!A1" }

def farBooks : Books :=
  Books.ofList [{ id := "b", name := "B", sheets := [{ id := "s", name := "S" }, { id := "t", name := "T" }], names := [farCell] }]

/-- What `N` leads to names the sheet, the formula itself does not. -/
example :
    let s : Surroundings := ⟨.builtin, farBooks, farBooks.nameTable⟩
    s.Leads ⟨"b", "s", 0, 0⟩ "=N" (s.tree "b" farCell.formula) ∧ sheetNamesOf farCell.formula = ["T"] ∧ sheetNamesOf "=N" = [] :=
  ⟨.definition .self (show "N" ∈ _ by decide +kernel) (by decide +kernel), by decide +kernel, by decide +kernel⟩

end Dependency

end Spreadsheet
