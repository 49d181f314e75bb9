/-!
Runs of letters whose case variants run in parallel: the letters `first`, `first + step`, … up to `last`
go to `target`, `target + step`, ….
-/

namespace Spreadsheet.Text

structure CaseRun where
  first : Nat
  last : Nat
  step : Nat
  target : Nat

/-- Where the run sends the code point, if it holds it. -/
def CaseRun.image? (r : CaseRun) (code : Nat) : Option Nat :=
  if r.first ≤ code ∧ code ≤ r.last ∧ (code - r.first) % r.step = 0 then
    some (r.target + (code - r.first))
  else
    none

end Spreadsheet.Text
