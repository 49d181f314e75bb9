import Spreadsheet.Proofs.Engine.Readback
import Spreadsheet.Proofs.Evaluation.Relisted

/-! The index of an engine is always that of its formulas. A calculation writes values into the workbooks and moves arrays; the
formulas, the names and what they stand for stay as they are, so that without a moved array there is nothing to index anew. -/

namespace Spreadsheet

open Dependency

namespace Books

variable {b : Books} {r : Report} {p : Place}

def names? (b : Books) (k : String) : Option (List DefinedName) := (b.book? k).map (·.names)

lemma names?_setCalculated (v : Scalar) (k : String) : (b.setCalculated p v).names? k = b.names? k := by
  simp only [names?, book?, setCalculated, modifySheet, modifyBook, Std.ExtTreeMap.getElem?_modify, Std.compare_eq_iff_eq]
  split
  · rename_i hk
    rw [hk, Option.map_map]
    rfl
  · rfl

lemma names?_applyTo (k : String) : (r.applyTo b).names? k = b.names? k := by
  rw [Report.applyTo_eq]
  induction r.values.toList generalizing b with
  | nil => rfl
  | cons x l ih => rw [List.foldl_cons, ih, names?_setCalculated]

lemma ofText_of_names {b' : Books} {registry : Registry} {names : NameTable} (h : ∀ k, b.names? k = b'.names? k)
    (book sheet text : String) (output : Region) :
    Entry.ofText ⟨registry, b, names⟩ book sheet text output = Entry.ofText ⟨registry, b', names⟩ book sheet text output := by
  refine Entry.ofText_of_definitions (fun k => ?_) book sheet text output
  have hk := h k
  unfold names? at hk
  cases hw : b.book? k with
  | none =>
    rw [hw, Option.map_none, eq_comm, Option.map_eq_none_iff] at hk
    rw [hk]
    exact .none
  | some w =>
    rw [hw, Option.map_some, eq_comm, Option.map_eq_some_iff] at hk
    obtain ⟨w', hw', hnames⟩ := hk
    rw [hw']
    exact .some fun name sheet => by rw [Workbook.definition?, Workbook.definition?, hnames]

end Books

namespace Engine

variable {e e' : Engine} {p : Place} {cell : Cell}

/-- The index is that of the formulas. -/
def UpToDate (e : Engine) : Prop := e.index = e.config.index e.registry

lemma upToDate_reindex (e : Engine) : e.reindex.UpToDate := rfl

lemma index_commit {r : Report} (hr : r.replaced = []) : (e.config.commit r).index e.registry = e.config.index e.registry := by
  simp only [Config.index, Index.build, output_commit hr, Config.books_commit, Config.names_commit, Config.formulas_commit,
    Books.ofText_of_names (Books.names?_applyTo (r := r) (b := e.config.books))]
  rfl

lemma UpToDate.commit (h : e.UpToDate) (r : Report) : (e.commit r).UpToDate := by
  rw [commit_eq]
  split
  · rename_i hr
    have hindex : e.index = (e.config.commit r).index e.registry := by rw [index_commit (List.isEmpty_iff.1 hr), h]
    exact hindex
  · exact upToDate_reindex _

lemma UpToDate.calculate (h : e.UpToDate) (waits : Bool) : (e.calculate waits).2.UpToDate := by
  have hhost : ∀ host, ({ e with host } : Engine).UpToDate := fun _ => h
  rcases e.calculate_cases waits with ⟨r, host, -, heq⟩ | ⟨g, host, -, heq⟩
  · rw [heq]
    exact (hhost host).commit r
  · rw [heq]
    exact hhost host

lemma upToDate_setCell (h : e.setCell p cell = .ok e') : e'.UpToDate := by
  rw [setCell] at h
  split at h
  · cases h
  · exact Except.ok.inj h ▸ upToDate_reindex _

/-- What an engine may be asked to do. -/
inductive Request
  | load (d : Dataset)
  | register (f : FunctionDef)
  | setOptions (o : Options)
  | setCursor (c : Cursor)
  | invalidate
  | markDirty (r : Region)
  | setCell (p : Place) (cell : Cell)
  | evaluate (text : String) (p : Place) (waits : Bool)
  | calculate (waits : Bool)

/-- The engine afterwards. An edit that is refused leaves it as it is. -/
def serve (e : Engine) : Request → Engine
  | .load d => e.load d
  | .register f => e.register f
  | .setOptions options => { e with options }
  | .setCursor cursor => { e with cursor }
  | .invalidate => e.invalidate
  | .markDirty r => e.markDirty r
  | .setCell p cell =>
    match e.setCell p cell with
    | .ok e' => e'
    | .error _ => e
  | .evaluate text p waits => (e.evaluate text p waits).2
  | .calculate waits => (e.calculate waits).2

lemma UpToDate.serve (h : e.UpToDate) (request : Request) : (e.serve request).UpToDate := by
  cases request with
  | load d => exact upToDate_reindex _
  | register f => exact upToDate_reindex _
  | setOptions | setCursor | invalidate | markDirty | evaluate => exact h
  | setCell p cell =>
    cases hset : e.setCell p cell with
    | error refusal =>
      rw [Engine.serve, hset]
      exact h
    | ok e' =>
      rw [Engine.serve, hset]
      exact upToDate_setCell hset
  | calculate waits => exact h.calculate waits

lemma upToDate_new (registry : Registry) (options : Options) : ({ registry, options } : Engine).UpToDate := by
  simp only [UpToDate, Config.index, Index.build, Std.ExtTreeMap.toList_eq_nil_iff.2 rfl, List.map_nil, List.foldl_nil]

/-- Whatever a new engine has been asked to do, its index is the one that its formulas and functions have now. -/
theorem index_of_requests (registry : Registry) (options : Options) (requests : List Request) :
    let e := requests.foldl serve { registry, options }
    e.index = e.config.index e.registry := by
  have hrun : ∀ (requests : List Request) {e : Engine}, e.UpToDate → (requests.foldl serve e).UpToDate := by
    intro requests
    induction requests with
    | nil => exact fun h => h
    | cons request requests ih => exact fun h => ih (h.serve request)
  exact hrun requests (upToDate_new registry options)

end Engine

end Spreadsheet
