import Spreadsheet.Dependency.Cycles
import Spreadsheet.Dependency.Spread

/-!
The plan of a calculation: which formulas are calculated and in which order. Cells that do not lie on a
cycle stand behind all cells they read. Cells on cycles are kept apart, since they are not calculated.
-/

namespace Spreadsheet.Dependency

structure Plan where
  cells : List Place := []
  cycles : List Place := []
  others : List ItemKey := []
  features : List ItemKey := []
deriving DecidableEq

namespace Plan

def isEmpty (p : Plan) : Bool :=
  p.cells.isEmpty && p.others.isEmpty && p.features.isEmpty && p.cycles.isEmpty

/-- The graph of cells: each leads to the cells it reads. -/
def readGraph (cells : Array (Place × Entry)) : Graph :=
  cells.map fun (_, e) => (List.range cells.size).filter fun w =>
    (cells[w]?.map fun (_, f) => e.references.any (·.overlaps f.output)).getD false

/-- What the changes make dirty, in order. -/
def make (i : Index) (features : List Feature) (c : Changes) : Plan :=
  let found := dirty i features c
  let places : PlaceSet := found.foldl (fun set t => match t with | .cell p => set.insert p | _ => set) ∅
  let others : ItemSet := found.foldl (fun set t => match t with | .other k => set.insert k | _ => set) ∅
  let cells := (i.cells.toList.filter fun (p, _) => places.contains p).toArray
  let graph := readGraph cells
  let cycles := graph.cycles.flatten
  let cyclic := Graph.marks graph.size cycles
  let placesOf (vertices : List Nat) := vertices.filterMap fun v => cells[v]?.map (·.1)
  { cells := placesOf (graph.finishOrder.filter fun v => !cyclic[v]?.getD true)
    cycles := placesOf cycles
    others := others.toList
    features := (found.filterMap fun t => match t with | .feature _ k => some k | _ => none).mergeSort
      fun k l => (compare k l).isLE }

end Plan

end Spreadsheet.Dependency
