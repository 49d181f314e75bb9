/-!
Depth-first walks of finite graphs, given by the successors of each vertex. A vertex is finished after all
vertices that can be reached from it and were not reached before, so that on a graph without cycles
everything stands behind what it leads to.
-/

namespace Spreadsheet.Dependency

variable (next : Nat → List Nat)

/-- How far a walk has come. -/
structure Walk where
  /-- Marks for the vertices that were reached. -/
  reached : Array Bool
  /-- The finished vertices, last one first. -/
  finished : List Nat := []

namespace Walk

def isReached (w : Walk) (v : Nat) : Bool := w.reached[v]?.getD true

def reach (w : Walk) (v : Nat) : Walk := { w with reached := w.reached.setIfInBounds v true }

def finish (w : Walk) (v : Nat) : Walk := { w with finished := v :: w.finished }

/-- Walks on from a vertex. A path that is longer than `depth` is cut off; no path of unreached vertices is
longer than their number. -/
def visit : (depth : Nat) → Walk → Nat → Walk
  | 0, w, _ => w
  | depth + 1, w, v =>
    if w.isReached v then w else ((next v).foldl (visit depth) (w.reach v)).finish v

end Walk

/-- The vertices below `size` in the order in which they are finished, with walks from each in turn. -/
def finishOrder (size : Nat) : List Nat :=
  ((List.range size).foldl (Walk.visit next (size + 1)) ⟨Array.replicate size false, []⟩).finished.reverse

/-- Everything a vertex leads to in one step or more, among the vertices below `size`. -/
def reachable (size : Nat) (v : Nat) : List Nat :=
  ((next v).foldl (Walk.visit next (size + 1)) ⟨Array.replicate size false, []⟩).finished

end Spreadsheet.Dependency
