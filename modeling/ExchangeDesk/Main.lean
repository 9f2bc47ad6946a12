import ExchangeDesk.CommandLine.Run
import Std.Time.DateTime.Timestamp

/-!
# The program

Reads the arguments, the book that they name and the clock, and prints what
the run of the command comes to.
-/

namespace ExchangeDesk.CommandLine

def errorNumber? : IO.Error → Option UInt32
  | .noFileOrDirectory _ n _ | .permissionDenied _ n _ | .inappropriateType _ n _
  | .invalidArgument _ n _ => some n
  | _ => none

/-- Numbers come with either sign; they are small enough to tell. -/
def FileError.ofError (e : IO.Error) : FileError :=
  ((errorNumber? e).bind fun n => ofNumber? (min n (-n)).toNat).getD (.other (toString e))

def readText (path : String) : IO (Except FileError String) := do
  try
    match String.fromUTF8? (← IO.FS.readBinFile path) with
    | some text => return .ok text
    | none => return .error .notText
  catch e => return .error (.ofError e)

/-- The file that the arguments name. Without one no file is read, so what
stands for it does not matter. -/
def readNamed (args : List String) : IO (Except FileError String) :=
  match Command.ofArgs? args with
  | .ok (some command) =>
    match command.path? with
    | some path => readText path
    | none => return .error .notFound
  | _ => return .error .notFound

end ExchangeDesk.CommandLine

open ExchangeDesk CommandLine

def main (args : List String) : IO UInt32 := do
  let content ← readNamed args
  let now ← Std.Time.Timestamp.now
  let outcome := run (fun _ => content) (fun _ => ⟨now.toNanosecondsSinceUnixEpoch.val⟩) args
  IO.print outcome.output
  IO.eprint outcome.errors
  return UInt32.ofNat outcome.code
