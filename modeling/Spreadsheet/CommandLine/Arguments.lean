/-!
Arguments of a command: options, which start with a hyphen, and all others. An option is written `--name`,
or by its letter, where several letters may share a hyphen. A value follows as the next argument or, after
`=` or directly behind the letter, in the same one. After `--` nothing is an option.
-/

namespace Spreadsheet.CommandLine

structure OptionName where
  long : String
  letter : Option Char := none
  takesValue : Bool := false

structure Arguments where
  plain : List String := []
  /-- The options that are given, by their long names. -/
  options : List (String × String) := []

namespace Arguments

def has (a : Arguments) (long : String) : Bool := a.options.any (·.1 == long)

def value? (a : Arguments) (long : String) : Option String := a.options.lookup long

/-- Enters an option, which may be given once only. -/
def enter (a : Arguments) (long value : String) : Option Arguments :=
  if a.has long then none else some { a with options := a.options ++ [(long, value)] }

/-- The parts before and after the first `=`. -/
def splitEquals (cs : List Char) : List Char × Option (List Char) :=
  match cs.dropWhile (· != '=') with
  | [] => (cs, none)
  | _ :: value => (cs.takeWhile (· != '='), some value)

/-- Can an argument be the value of the option before it? -/
def isValue (s : String) : Bool := !s.startsWith "-" || s == "-"

/-- Letters behind one hyphen, and what is left of the arguments after them. -/
def readLetters (names : List OptionName) (a : Arguments) :
    List Char → List String → Option (Arguments × List String)
  | [], rest => some (a, rest)
  | c :: cs, rest => do
    let o ← names.find? (·.letter == some c)
    if o.takesValue then
      match cs, rest with
      | [], v :: rest => if isValue v then return (← a.enter o.long v, rest) else none
      | [], [] => none
      | cs, rest =>
        let v := if cs.head? = some '=' then cs.drop 1 else cs
        return (← a.enter o.long (String.ofList v), rest)
    else readLetters names (← a.enter o.long "") cs rest

/-- An option by its long name, and what is left of the arguments after it. -/
def readLong (names : List OptionName) (a : Arguments) (cs : List Char) (rest : List String) :
    Option (Arguments × List String) := do
  let (name, value) := splitEquals cs
  let o ← names.find? (·.long == String.ofList name)
  match o.takesValue, value, rest with
  | true, some v, rest => return (← a.enter o.long (String.ofList v), rest)
  | true, none, v :: rest => if isValue v then return (← a.enter o.long v, rest) else none
  | true, none, [] => none
  | false, none, rest => return (← a.enter o.long "", rest)
  | false, some _, _ => none

/-- Reads as many arguments as `fuel` says; each step takes at least one. -/
def readWithin (names : List OptionName) : (fuel : Nat) → Arguments → List String → Option Arguments
  | 0, a, rest => if rest.isEmpty then some a else none
  | _, a, [] => some a
  | fuel + 1, a, s :: rest =>
    match s.toList with
    | ['-', '-'] => some { a with plain := a.plain ++ rest }
    | '-' :: '-' :: cs => do
      let (a, rest) ← readLong names a cs rest
      readWithin names fuel a rest
    | '-' :: c :: cs => do
      let (a, rest) ← readLetters names a (c :: cs) rest
      readWithin names fuel a rest
    | _ => readWithin names fuel { a with plain := a.plain ++ [s] } rest

/-- Reads arguments; nothing, if one is not understood. -/
def read? (names : List OptionName) (args : List String) : Option Arguments :=
  readWithin names args.length {} args

end Arguments

end Spreadsheet.CommandLine
