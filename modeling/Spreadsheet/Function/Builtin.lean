import Spreadsheet.Function.Dates
import Spreadsheet.Function.Info
import Spreadsheet.Function.Logic
import Spreadsheet.Function.Lookup
import Spreadsheet.Function.Math
import Spreadsheet.Function.Texts

/-!
The registry of all functions that come with the program.
-/

namespace Spreadsheet

open Spreadsheet.Function in
def Registry.builtin : Registry :=
  Registry.empty.registerAll
    (lookupFunctions ++ mathFunctions ++ logicFunctions ++ infoFunctions ++ textFunctions ++ dateFunctions)

end Spreadsheet
