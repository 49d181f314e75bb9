import Spreadsheet.Books
import Spreadsheet.Formula.Parse
import Spreadsheet.Function.Basic

/-!
What a formula mentions: the ranges it reads, the defined names and sheet names it uses, and whether it
calls a volatile function. A defined name counts with what its definition mentions, and so on through all
names that can be reached; a name that is met again is not followed a second time.
-/

namespace Spreadsheet.Dependency

open Std Text Formula

structure Entry where
  text : String
  node : Node
  /-- The ranges of the formula, then those of the definitions in the order they are reached. -/
  references : List Region
  /-- In upper case and in order. -/
  names : List String
  /-- The sheet names written in the text itself, in upper case and in order. -/
  sheetNames : List String
  volatile : Bool
  /-- Where the result lands: the cell, or the range it spills into. -/
  output : Region

/-- What formulas are analysed against. -/
structure Surroundings where
  registry : Registry
  books : Books
  names : NameTable

/-- In order and without repetitions. -/
def sorted (names : List String) : List String := (names.foldl (fun set name => set.insert name) (∅ : ExtTreeSet String)).toList

/-- The ranges a tree refers to, for a formula on the given sheet. -/
def referencesOf (book sheet : String) (n : Node) : List Region :=
  n.nodes.filterMap fun
    | .reference _ b s range => some ⟨b.getD book, s.getD sheet, range⟩
    | _ => none

def namesOf (n : Node) : List String :=
  n.nodes.filterMap fun
    | .name _ name => some name
    | _ => none

def sheetNamesOf (text : String) : List String :=
  (TokenTree.tokensIn (TokenTree.ofText {} text)).filterMap fun
    | (.reference r, _) => r.sheet.map upper
    | _ => none

def callsVolatile (r : Registry) (n : Node) : Bool := n.functionNames.any r.isVolatile

/-- The keys that have not been met yet. -/
def unmet (keys met : List String) : List String := keys.filter (· ∉ met)

theorem unmet_cons (keys met : List String) (key : String) :
    unmet keys (key :: met) = (unmet keys met).filter (· ≠ key) := by
  simp [unmet, List.filter_filter]

theorem length_unmet_cons_le (keys met : List String) (key : String) :
    (unmet keys (key :: met)).length ≤ (unmet keys met).length := by
  rw [unmet_cons]
  exact List.length_filter_le _ _

theorem length_unmet_cons_lt {keys met : List String} {key : String} (hk : key ∈ keys)
    (h : key ∉ met) : (unmet keys (key :: met)).length < (unmet keys met).length := by
  rw [unmet_cons, List.length_filter_lt_length_iff_exists]
  exact ⟨key, by simpa [unmet] using ⟨hk, h⟩, by simp⟩

end Spreadsheet.Dependency

namespace Spreadsheet

open Text

theorem Workbook.mem_of_definition? {b : Workbook} {name : String} {sheet : Option String}
    {d : DefinedName} (h : b.definition? name sheet = some d) :
    d ∈ b.names ∧ upper d.name = upper name := by
  have named : ∀ p, (b.names.filter (sameLetters ·.name name)).find? p = some d →
      d ∈ b.names ∧ upper d.name = upper name := fun p h => by
    have := List.mem_filter.1 (List.mem_of_find?_eq_some h)
    exact ⟨this.1, upper_eq_of_sameLetters this.2⟩
  simp only [definition?] at h
  rcases sheet with _ | id
  · exact named _ h
  · simp only [Option.bind_some] at h
    rcases Option.or_eq_some_iff.1 h with h | ⟨_, h⟩
    · exact named _ h
    · exact named _ h

namespace Dependency

open Formula

/-- The names reached from a stack of names, in upper case, each with the tree of its definition. The name
met last is followed first. -/
def reached (parse : DefinedName → Node) (book : Workbook) (sheet : String) :
    (met stack : List String) → List (String × Option Node)
  | _, [] => []
  | met, name :: stack =>
    let key := upper name
    if key ∈ met then reached parse book sheet met stack
    else
      match _h : book.definition? name (some sheet) with
      | none => (key, none) :: reached parse book sheet (key :: met) stack
      | some d =>
        let body := parse d
        (key, some body) :: reached parse book sheet (key :: met) ((namesOf body).reverse ++ stack)
termination_by met stack => ((unmet (book.names.map (upper ·.name)) met).length, stack.length)
decreasing_by
  · simp_wf
    right
    simp
  · simp_wf
    rcases Nat.lt_or_eq_of_le (length_unmet_cons_le _ met (upper name)) with lt | eq
    · left; exact lt
    · rw [eq]; right; simp
  · simp_wf
    left
    obtain ⟨mem, same⟩ := Workbook.mem_of_definition? _h
    exact length_unmet_cons_lt (List.mem_map.2 ⟨d, mem, same⟩) (by assumption)

namespace Entry

/-- Analyses a formula on the given sheet. -/
def ofText (s : Surroundings) (book sheet text : String) (output : Region) : Entry :=
  let binder : Binder := { names := s.names, book := some book }
  let node := Node.parse binder text
  let names := match s.books.book? book with
    | some b => reached (Node.parse binder ·.formula) b sheet [] (namesOf node).reverse
    | none => (namesOf node).map (upper · , none)
  let nodes := node :: names.filterMap (·.2)
  { text, node, output
    references := nodes.flatMap (referencesOf book sheet)
    names := sorted (names.map (·.1))
    sheetNames := sorted (sheetNamesOf text)
    volatile := nodes.any (callsVolatile s.registry) }

end Entry

end Dependency

end Spreadsheet
