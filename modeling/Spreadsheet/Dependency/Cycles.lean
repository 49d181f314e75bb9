import Spreadsheet.Dependency.Walk

/-!
The cycles of a finite graph. Two vertices lie on a common cycle if each can be reached from the other; a
vertex that leads to itself is a cycle of its own. Along any ranking of the vertices every cycle has an
edge that does not lead to a lower rank, so that only the sources of such edges have to be looked at.
-/

namespace Spreadsheet.Dependency

/-- The successors of each of the vertices `0`, `1`, …. -/
abbrev Graph := Array (List Nat)

namespace Graph

def next (g : Graph) (v : Nat) : List Nat := g[v]?.getD []

/-- Every edge turned around. -/
def reverse (g : Graph) : Graph :=
  (List.range g.size).foldl (fun r v => (g.next v).foldl (fun r w => r.modify w (v :: ·)) r)
    (Array.replicate g.size [])

def finishOrder (g : Graph) : List Nat := Dependency.finishOrder g.next g.size

def reachable (g : Graph) (v : Nat) : List Nat := Dependency.reachable g.next g.size v

/-- The position of each vertex in a list. -/
def positions (size : Nat) (order : List Nat) : Array Nat :=
  (order.zipIdx).foldl (fun ranks (v, i) => ranks.setIfInBounds v i) (Array.replicate size 0)

/-- Marks for the vertices of a list. -/
def marks (size : Nat) (vertices : List Nat) : Array Bool :=
  vertices.foldl (fun marks v => marks.setIfInBounds v true) (Array.replicate size false)

/-- The vertices that share a cycle with the given one, lowest first. -/
def component (g r : Graph) (v : Nat) : List Nat :=
  let behind := marks g.size (r.reachable v)
  ((g.reachable v).filter fun w => behind[w]?.getD false).mergeSort

/-- The sets of vertices that share cycles. A set stands before another one if the last of its members is
finished before. -/
def cycles (g : Graph) : List (List Nat) :=
  let order := g.finishOrder
  let ranks := positions g.size order
  let rank (v : Nat) := ranks[v]?.getD 0
  let sources := order.filter fun v => (g.next v).any fun w => rank v ≤ rank w
  let r := g.reverse
  let found := sources.foldl (fun found v =>
    if found.any (·.contains v) then found else g.component r v :: found) []
  let last (c : List Nat) := c.foldl (fun n v => max n (rank v)) 0
  (found.filter (!·.isEmpty)).mergeSort fun c d => last c ≤ last d

end Graph

end Spreadsheet.Dependency
