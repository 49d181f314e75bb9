import Spreadsheet.Dependency.Changes
import Spreadsheet.Dependency.Index

/-!
How changes spread: what depends on other things is dirty if it is so from the start, or if it reads what
something dirty writes. `spread` collects everything that the first dirty ones lead to.
-/

namespace Spreadsheet.Dependency

open Std

/-- What a calculation can find dirty. Features are told apart by their position in the list. -/
inductive Target
  | cell (p : Place)
  | other (k : ItemKey)
  | feature (position : Nat) (k : ItemKey)
deriving DecidableEq

structure Dependent where
  target : Target
  reads : List Region
  writes : List Region
  /-- Dirty from the start. -/
  seeded : Bool

namespace Dependent

def readsFrom (d e : Dependent) : Bool := e.writes.any fun w => d.reads.any (·.overlaps w)

/-- Is a formula dirty by what it mentions? -/
def mentionsChange (c : Changes) (book : String) (e : Entry) : Bool :=
  c.force || (c.volatile && e.volatile) || c.ranges.any (fun r => e.references.any (·.overlaps r)) ||
    c.names.any (fun n => n.1 == book && e.names.contains n.2) ||
    c.sheetNames.any (fun n => e.sheetNames.contains n.2)

def ofCell (c : Changes) (p : Place) (e : Entry) : Dependent where
  target := .cell p
  reads := e.references
  writes := [e.output]
  seeded := mentionsChange c p.book e || c.ranges.any e.output.overlaps

def ofOther (c : Changes) (k : ItemKey) (e : Entry) : Dependent where
  target := .other k
  reads := e.references
  writes := []
  seeded := mentionsChange c k.book e || c.others.contains k

def ofFeature (c : Changes) (position : Nat) (f : Feature) : Dependent where
  target := .feature position f.key
  reads := f.dependencies
  writes := f.outputs
  seeded := c.features.contains f.key || c.ranges.any fun r => f.dependencies.any (·.overlaps r)

/-- All that can become dirty: the cells in order without the excluded ones, other formulas in order, and
the features. -/
def all (i : Index) (features : List Feature) (c : Changes) : List Dependent :=
  ((i.cells.toList.filter fun (p, _) => !c.excluded.contains p).map fun (p, e) => ofCell c p e) ++
    i.others.toList.map (fun (k, e) => ofOther c k e) ++
    features.mapIdx (ofFeature c)

end Dependent

/-- The readers of something, and the others. -/
def readers (d : Dependent) (l : List Dependent) : List Dependent := l.filter (·.readsFrom d)

def nonReaders (d : Dependent) (l : List Dependent) : List Dependent := l.filter (!·.readsFrom d)

theorem length_readers_add (d : Dependent) (l : List Dependent) :
    (readers d l).length + (nonReaders d l).length = l.length := by
  induction l with
  | nil => rfl
  | cons e l ih => by_cases h : e.readsFrom d <;> simp_all [readers, nonReaders] <;> omega

/-- The frontier and everything of the rest that it leads to. -/
def spread : (frontier rest : List Dependent) → List Dependent
  | [], _ => []
  | d :: frontier, rest => d :: spread (readers d rest ++ frontier) (nonReaders d rest)
termination_by frontier rest => frontier.length + rest.length
decreasing_by
  have := length_readers_add d rest
  simp
  omega

/-- What is dirty after the changes. -/
def dirty (i : Index) (features : List Feature) (c : Changes) : List Target :=
  let (seeds, rest) := (Dependent.all i features c).partition (·.seeded)
  (spread seeds rest).map (·.target)

end Spreadsheet.Dependency
