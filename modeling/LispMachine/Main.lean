import LispMachine.CommandLine

/-!
The program: reads the files that the command line names, executes it and prints what it says.
-/

set_option autoImplicit false

namespace LispMachine

/-- The variables of the environment that matter to the settings. -/
def readEnvironment : IO (List (String × String)) := do
  let found ← ["BYTEVM_JIT", "BYTEVM_SAFE", "BYTEVM_METER"].mapM fun name => do
    return (← IO.getEnv name).map fun value => (name, value)
  return found.filterMap id

/-- Why reading failed. -/
def readErrorOf : IO.Error → ReadError
  | .inappropriateType _ code _ => if code = 21 then .directory else .notDirectory
  | .invalidArgument .. => .nameTooLong
  | _ => .missing

/-- What reading a file gives. -/
def readText (path : String) : IO (Except ReadError String) := do
  try
    let bytes ← IO.FS.readBinFile path
    match String.fromUTF8? bytes with
    | some text => return .ok text
    | none => return .error .notText
  catch error => return .error (readErrorOf error)

end LispMachine

open LispMachine in
def main (words : List String) : IO UInt32 := do
  let paths := (CommandLine.parse? words).elim [] CommandLine.files
  let texts ← paths.mapM fun path => return (path, ← readText path)
  let surroundings : Surroundings :=
    { read := fun path => (texts.lookup path).getD (.error .missing)
      environment := ← readEnvironment
      host := "unknown"
      nativeSize := "0" }
  let outcome := CommandLine.executeWords words surroundings
  IO.print outcome.output
  IO.eprint outcome.errors
  return outcome.exitCode
