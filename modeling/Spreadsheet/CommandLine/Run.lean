import Spreadsheet.CommandLine.Arguments
import Spreadsheet.CommandLine.Listing
import Spreadsheet.Engine.Basic

/-!
The command line: `eval` shows the value of a formula, `tokens` and `ast` its tokens and its tree, and
`recalc` calculates the formulas of a file and shows their results.
-/

namespace Spreadsheet.CommandLine

open Formula

/-- What a run shows, and the code it ends with. -/
structure Output where
  code : Nat := 0
  stdout : String := ""
  stderr : String := ""

inductive Failure
  | badCell (text : String) (cause : AddressError)
  | unreadable (path cause : String)
  | notADataset (path : String)
  | noSource
  | superseded (generation : Nat)
  /-- The arguments are not understood. -/
  | usage

namespace Failure

def message : Failure → String
  | badCell text _ => "Invalid cell '" ++ text ++ "'"
  | unreadable path _ => "Failed to read '" ++ path ++ "'"
  | notADataset path => "Failed to parse '" ++ path ++ "'"
  | noSource => "recalc needs --data or --units"
  | superseded generation => "calculation was superseded by generation " ++ toString generation
  | usage => "unexpected arguments"

def cause? : Failure → Option String
  | badCell _ cause => some cause.message
  | unreadable _ cause => some cause
  | notADataset _ => some "the file does not hold the data that is expected"
  | noSource | superseded _ | usage => none

def output (f : Failure) : Output :=
  match f with
  | usage => { code := 2, stderr := "error: " ++ f.message ++ "\n" }
  | f =>
    let cause := match f.cause? with
      | some s => "\n\nCaused by:\n    " ++ s
      | none => ""
    { code := 1, stderr := "Error: " ++ f.message ++ cause ++ "\n" }

end Failure

/-- A command with its arguments. -/
inductive Command
  | eval (formula : String) (a : Arguments)
  | tokens (formula : String)
  | ast (formula : String)
  | recalc (a : Arguments)

/-- The file that the arguments name. -/
def Arguments.path? (a : Arguments) : Option String := (a.value? "data").or (a.value? "units")

def Command.path? : Command → Option String
  | eval _ a | recalc a => a.path?
  | tokens _ | ast _ => none

/-- The contents of the file that a command names, or why it cannot be read. -/
abbrev File := Except String String

def decode {α : Type} (path : String) (file : File) (d : Json.Decoder α) : Except Failure α :=
  match file with
  | .error cause => .error (.unreadable path cause)
  | .ok text =>
    match (Json.parse? text).bind d with
    | some a => .ok a
    | none => .error (.notADataset path)

/-- The dataset or the workbooks that the arguments name. -/
def source (a : Arguments) (file : File) : Except Failure Dataset :=
  match a.value? "data", a.value? "units" with
  | some path, _ => decode path file Dataset.ofJson
  | none, some path => do return { books := ← decode path file Dataset.workbooks }
  | none, none => .ok {}

def engine (host : Host) (d : Dataset) : Engine :=
  ({ registry := Registry.builtin, host } : Engine).load d

/-- The lowest id among the workbooks. -/
def lowestBook? (b : Books) : Option String :=
  (b.toList.map (·.id)).foldl (fun least id => match least with
    | none => some id
    | some l => if id < l then some id else some l) none

def runEval (host : Host) (formula : String) (a : Arguments) (file : File) : Except Failure Output := do
  let text := (a.value? "at").getD "A1"
  let address ← match Address.parse text with
    | .ok address => .ok address
    | .error cause => .error (Failure.badCell text cause)
  let e := engine host (← source a file)
  let books := e.config.books
  let book := ((a.value? "unit").or (lowestBook? books)).getD ""
  let firstSheet := (books.book? book).bind fun b => b.sheets.head?.map (·.id)
  let sheet := ((a.value? "sheet").or firstSheet).getD ""
  let (v, _) := e.evaluate formula ⟨book, sheet, address.row, address.col⟩ (a.has "async")
  return { stdout := v.display ++ "\n" }

def runTokens (formula : String) : Output :=
  let nodes := TokenTree.ofText {} formula
  { stdout := String.join ((TokenTree.tokensIn nodes).map fun (t, s) => tokenLine t s)
    stderr := String.join (TokenTree.complaintsIn nodes) }

def runTree (formula : String) : Output := { stdout := (Node.parse {} formula).display ++ "\n" }

def runRecalc (host : Host) (a : Arguments) (file : File) : Except Failure Output := do
  if a.path?.isNone then throw .noSource
  let d ← source a file
  let e := engine host { d with force := d.force || a.has "force" }
  match (e.calculate (a.has "async")).1 with
  | .superseded generation => throw (.superseded generation)
  | .completed r =>
    return {
      stdout := if a.has "json" then r.toJson.pretty ++ "\n" else r.listing
      stderr := Report.summary r.stats }

def verbose : OptionName := { long := "verbose", letter := some 'v' }

def sourceOptions : List OptionName :=
  [{ long := "data", letter := some 'd', takesValue := true }, { long := "units", takesValue := true }]

def evalOptions : List OptionName :=
  verbose :: sourceOptions ++
    [{ long := "unit", takesValue := true }, { long := "sheet", takesValue := true },
     { long := "at", letter := some 'a', takesValue := true }, { long := "async" }]

def recalcOptions : List OptionName :=
  verbose :: sourceOptions ++
    [{ long := "force", letter := some 'f' }, { long := "json" }, { long := "async" }]

/-- Reads the arguments of a command, of which so many are no options. Data and workbooks cannot both be
given. -/
def arguments? (names : List OptionName) (plain : Nat) (args : List String) : Option Arguments := do
  let a ← Arguments.read? names args
  if a.plain.length = plain ∧ !(a.has "data" && a.has "units") then some a else none

/-- The command that the arguments of the program ask for. -/
def Command.read? (args : List String) : Option Command :=
  match args.dropWhile fun s => s == "-v" || s == "--verbose" with
  | "eval" :: args => (arguments? evalOptions 1 args).map fun a => eval (a.plain.headD "") a
  | "tokens" :: args => (arguments? [verbose] 1 args).map fun a => tokens (a.plain.headD "")
  | "ast" :: args => (arguments? [verbose] 1 args).map fun a => ast (a.plain.headD "")
  | "recalc" :: args => (arguments? recalcOptions 0 args).map recalc
  | _ => none

def Command.run (host : Host) (file : File) (c : Command) : Output :=
  let result := match c with
    | eval formula a => runEval host formula a file
    | tokens formula => .ok (runTokens formula)
    | ast formula => .ok (runTree formula)
    | recalc a => runRecalc host a file
  match result with
  | .ok output => output
  | .error failure => failure.output

end Spreadsheet.CommandLine
