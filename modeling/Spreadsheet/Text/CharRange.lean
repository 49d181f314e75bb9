/-!
Sets of characters given as a list of closed ranges of code points.
-/

namespace Spreadsheet.Text

/-- Does one of the ranges hold the code point? -/
def inRanges (ranges : List (Nat × Nat)) (code : Nat) : Bool :=
  ranges.any fun r => r.1 ≤ code && code ≤ r.2

end Spreadsheet.Text
