import Spreadsheet.Dataset.Json
import Spreadsheet.Engine.Report
import Spreadsheet.Formula.TokenTree
import Spreadsheet.Json.Write
import Spreadsheet.Number.Text
import Spreadsheet.Text.Length
import Spreadsheet.Text.Quoted

/-!
Listings of tokens and of results.
-/

namespace Spreadsheet

open Text Formula

namespace Formula

def OperatorSign.listing : OperatorSign → String
  | plus => "Plus"
  | minus => "Minus"
  | multiply => "Multiply"
  | divide => "Divide"
  | power => "Power"
  | percent => "Percent"
  | concat => "Concat"
  | equal => "Equal"
  | notEqual => "NotEqual"
  | less => "Less"
  | lessEqual => "LessEqual"
  | greater => "Greater"
  | greaterEqual => "GreaterEqual"
  | colon => "Colon"
  | intersect => "Intersect"

def listOption : Option String → String
  | some s => "Some(" ++ quoted s ++ ")"
  | none => "None"

/-- The stretch of a reference that its area takes up, which is its end. -/
def areaSpan (r : ReferenceToken) (s : Span) : Span := ⟨s.stop - byteLength r.area.toList, s.stop⟩

def Token.listing (span : Span) : Token → String
  | number x => "Number(" ++ Number.tokenStyle.write x ++ ")"
  | text s => "Text(" ++ quoted s ++ ")"
  | boolean b => "Boolean(" ++ (if b then "true" else "false") ++ ")"
  | error e => "Error(" ++ e.jsonName ++ ")"
  | operator o => "Operator(" ++ o.listing ++ ")"
  | function s => "Function(" ++ quoted s ++ ")"
  | reference r =>
    let area := areaSpan r span
    "Reference(ReferenceToken \x7b workbook: " ++ listOption r.book ++ ", sheet: " ++ listOption r.sheet ++
      ", area: " ++ quoted r.area ++ ", area_span: Span \x7b start: " ++ toString area.start ++
      ", end: " ++ toString area.stop ++ " \x7d \x7d)"
  | name s => "Name(" ++ quoted s ++ ")"
  | argumentSeparator => "ArgumentSeparator"
  | columnSeparator => "ArrayColumnSeparator"
  | rowSeparator => "ArrayRowSeparator"

def padding (width : Nat) (s : String) : String := String.ofList (List.replicate (width - s.length) ' ')

/-- One line for a token, its span first. -/
def tokenLine (t : Token) (s : Span) : String :=
  let start := toString s.start
  let stop := toString s.stop
  padding 4 start ++ start ++ ".." ++ stop ++ padding 4 stop ++ " " ++ t.listing s ++ "\n"

mutual

/-- Lines for what is wrong with a tree. -/
def TokenTree.complaints : TokenTree → List String
  | .token _ _ => []
  | .malformed m s =>
    ["malformed at " ++ toString s.start ++ ".." ++ toString s.stop ++ ": " ++ m.message ++ "\n"]
  | .group _ children s closed =>
    (if closed then [] else ["unclosed group at " ++ toString s.start ++ "\n"]) ++ complaintsIn children

def TokenTree.complaintsIn : List TokenTree → List String
  | [] => []
  | n :: ns => n.complaints ++ complaintsIn ns

end

end Formula

namespace Report

def cellText (p : Place) : String := ({ row := p.row, col := p.col } : Address).text

/-- One line for each result: where it is, and its value. -/
def listing (r : Report) : String :=
  String.join <| r.values.toList.map fun (p, v) =>
    p.book ++ "/" ++ p.sheet ++ "!" ++ cellText p ++ "\t" ++ v.display ++ "\n"

def toJson (r : Report) : Json :=
  .object
    [("cells", .array <| r.values.toList.map fun (p, v) =>
       .object [("cell", .string (cellText p)), ("sheet", .string p.sheet), ("unit", .string p.book),
         ("value", v.toJson)]),
     ("stats", .object
       [("cells_calculated", .ofNat r.stats.calculated),
        ("circular_references", .ofNat r.stats.circular),
        ("errors", .ofNat r.stats.errors),
        ("formula_count", .ofNat r.stats.formulas),
        ("volatile_cells", .ofNat r.stats.volatile)])]

def summary (s : Stats) : String :=
  "Calculated " ++ toString s.calculated ++ " of " ++ toString s.formulas ++ " formulas (" ++
    toString s.circular ++ " circular, " ++ toString s.volatile ++ " volatile, " ++ toString s.errors ++
    " errors)\n"

end Report

end Spreadsheet
