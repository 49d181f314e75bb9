import Spreadsheet.Address
import Spreadsheet.AreaText
import Spreadsheet.Arithmetic
import Spreadsheet.Books
import Spreadsheet.CommandLine.Run
import Spreadsheet.Dataset.Json
import Spreadsheet.Dependency.Plan
import Spreadsheet.Engine.Basic
import Spreadsheet.Evaluation.Interpreter
import Spreadsheet.Formula.Parse
import Spreadsheet.Formula.Shared
import Spreadsheet.Function.Builtin
import Spreadsheet.Main
import Spreadsheet.Sorting
import Spreadsheet.Place
import Spreadsheet.Proofs.Dependency.Cycles
import Spreadsheet.Proofs.Dependency.Spread
import Spreadsheet.Proofs.Dependency.Plan
import Spreadsheet.Proofs.Books
import Spreadsheet.Proofs.Engine.Calculation
import Spreadsheet.Proofs.Engine.Config
import Spreadsheet.Proofs.Engine.Incremental
import Spreadsheet.Proofs.Engine.Agreement
import Spreadsheet.Proofs.Evaluation.Tiling
import Spreadsheet.Proofs.Function.Sealed
import Spreadsheet.Proofs.Evaluation.Footprint
import Spreadsheet.Proofs.Evaluation.Coverage
import Spreadsheet.Proofs.Evaluation.Depth
import Spreadsheet.Proofs.Evaluation.Exposed
import Spreadsheet.Proofs.Engine.Upkeep
import Spreadsheet.Proofs.Engine.Exposure
import Spreadsheet.Proofs.Engine.Readback
import Spreadsheet.Proofs.Evaluation.Promise
import Spreadsheet.Proofs.Evaluation.Waiting
import Spreadsheet.Proofs.Engine.Delayed
import Spreadsheet.Proofs.Formula.Climb
import Spreadsheet.Proofs.Formula.Plus
import Spreadsheet.Proofs.Formula.Fault
import Spreadsheet.Proofs.Dependency.Mention
import Spreadsheet.Proofs.Engine.Circular
import Spreadsheet.Proofs.Formula.Shift
import Spreadsheet.Proofs.Engine.Mosaic
import Spreadsheet.Proofs.Engine.Blocked
import Spreadsheet.Proofs.Engine.Faults
import Spreadsheet.Proofs.Formula.Cover
import Spreadsheet.Proofs.Evaluation.Likeness
import Spreadsheet.Proofs.Evaluation.Once
import Spreadsheet.Proofs.Evaluation.Course
import Spreadsheet.Proofs.Evaluation.Demand
import Spreadsheet.Proofs.Evaluation.Twin
import Spreadsheet.Proofs.Engine.Superseded
import Spreadsheet.Proofs.Formula.Locale
import Spreadsheet.Proofs.Evaluation.Descent
import Spreadsheet.Proofs.Evaluation.Bounds
import Spreadsheet.Proofs.NameTable
import Spreadsheet.Proofs.Formula.SheetName
import Spreadsheet.Proofs.Function.Solid
import Spreadsheet.Proofs.Evaluation.Flatness
import Spreadsheet.Proofs.Engine.Flatness
import Spreadsheet.Proofs.Evaluation.Invariant
import Spreadsheet.Proofs.Evaluation.Definition
import Spreadsheet.Proofs.Formula.Word
import Spreadsheet.Proofs.Evaluation.Usable
import Spreadsheet.Proofs.Engine.Index
import Spreadsheet.Proofs.Matrix
import Spreadsheet.Proofs.Sorting
import Spreadsheet.Proofs.Spelling
import Spreadsheet.Proofs.Engine.Enumeration
import Spreadsheet.Proofs.Engine.Formats
import Spreadsheet.Proofs.Formula.Compose
import Spreadsheet.Proofs.Comparison
import Spreadsheet.Proofs.Number.Entry
