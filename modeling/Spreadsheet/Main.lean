import Spreadsheet.CommandLine.Run
import Std.Time.Zoned

/-!
The program: reads the clock, random bytes and the file that a command names, and prints what a run shows.
-/

open Spreadsheet

/-- The local time as a serial number. -/
def currentMoment : IO Float := do
  let now ← Std.Time.PlainDateTime.now
  return DateTime.serial
    { year := now.year.toInt, month := now.month.toNat, day := now.day.toNat
      hour := now.hour.val.toNat, minute := now.minute.val.toNat, second := now.second.val.toNat }

def currentHost : IO Host := do
  let bytes ← IO.getRandomBytes 8
  let seed := bytes.foldl (fun n b => n * 256 + b.toUInt64) 0
  return { moment := ← currentMoment, seed }

def readFile (path : String) : IO (Except String String) := do
  try
    return .ok (← IO.FS.readFile path)
  catch e =>
    return .error <| match e with
      | .noFileOrDirectory .. => "No such file or directory (os error 2)"
      | e => toString e

def main (args : List String) : IO UInt32 := do
  let output ← match CommandLine.Command.read? args with
    | none => pure CommandLine.Failure.usage.output
    | some c => do
      let file ← match c.path? with
        | some path => readFile path
        | none => pure (.error "no file")
      pure (c.run (← currentHost) file)
  IO.print output.stdout
  IO.eprint output.stderr
  return output.code.toUInt32
