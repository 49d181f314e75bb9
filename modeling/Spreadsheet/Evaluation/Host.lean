import Spreadsheet.Function.Basic

/-!
Where functions run: the host keeps the generations of calculations, the work that functions have left for
later, and counts how often each function ran. A handle stands for a piece of such work; its work is done
once, and its answer is the same for all who ask.
-/

namespace Spreadsheet

open Std

/-- Numbers for calculations. A new one supersedes all before it. -/
structure Generations where
  latest : Nat := 0
deriving DecidableEq

namespace Generations

def issue (g : Generations) : Generations := ⟨g.latest + 1⟩

def isCurrent (g : Generations) (generation : Nat) : Bool := generation == g.latest

end Generations

structure Host where
  generations : Generations := {}
  /-- Work for later, by handle. -/
  waiting : ExtTreeMap Nat Task := ∅
  settled : ExtTreeMap Nat Value := ∅
  nextHandle : Nat := 0
  /-- How often each function ran. -/
  runs : ExtTreeMap String Nat := ∅
  /-- The time as a serial number. -/
  moment : Float := 0
  /-- Where the numbers for `CallSite.draw` start, and how many were drawn. -/
  seed : UInt64 := 0
  drawn : Nat := 0

namespace Host

def issueGeneration (h : Host) : Host := { h with generations := h.generations.issue }

/-- Scrambles the bits of a counter. -/
def scramble (x : UInt64) : UInt64 :=
  let x := (x ^^^ (x >>> 30)) * 0xbf58476d1ce4e5b9
  let x := (x ^^^ (x >>> 27)) * 0x94d049bb133111eb
  x ^^^ (x >>> 31)

def draw (h : Host) : Nat × Host :=
  let drawn := h.drawn + 1
  ((scramble (h.seed + 0x9e3779b97f4a7c15 * drawn.toUInt64)).toNat, { h with drawn })

/-- A handle for work that is done later. -/
def defer (h : Host) (work : Task) : Nat × Host :=
  (h.nextHandle, { h with nextHandle := h.nextHandle + 1, waiting := h.waiting.insert h.nextHandle work })

/-- A handle whose answer is known. -/
def settle (h : Host) (v : Value) : Nat × Host :=
  (h.nextHandle, { h with nextHandle := h.nextHandle + 1, settled := h.settled.insert h.nextHandle v })

/-- Does a task up to its answer, which may be a handle; nothing, if it breaks off. -/
def perform (h : Host) : Task → Option Value × Host
  | .answer v => (some v, h)
  | .fault => (none, h)
  | .later work =>
    let (handle, h) := h.defer work
    (some (.pending handle), h)
  | .supersede next => h.issueGeneration.perform next

def countRun (h : Host) (name : String) : Host :=
  { h with runs := h.runs.insert name (h.runs[name]?.getD 0 + 1) }

/-- Runs a function. -/
def call (h : Host) (f : FunctionDef) (args : List Value) (place : Place) (rowCount colCount : Nat) :
    Option Value × Host :=
  let (draw, h) := (h.countRun f.name).draw
  h.perform (f.run args { place, rowCount, colCount, moment := h.moment, draw })

/-- The answer behind a handle, which is worked out now if it is asked for the first time. -/
def resolve (h : Host) (handle : Nat) : Option Value × Host :=
  match h.settled[handle]?, h.waiting[handle]? with
  | some v, _ => (some v, h)
  | none, none => (some (.error .calculation), h)
  | none, some work =>
    match h.perform work with
    | (some v, h) => (some v, { h with settled := h.settled.insert handle v })
    | (none, h) => (none, h)

end Host

end Spreadsheet
