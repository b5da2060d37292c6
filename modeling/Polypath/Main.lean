import Polypath.Command.Program

/-!
# The command line

The program on real files, which are a disk on which commands are carried out.
-/

namespace Polypath

/-- Whether a reported code is a given code of the operating system, which some calls report negated. -/
def reportsCode (reported code : UInt32) : Bool :=
  decide (reported = code ∨ reported = 0 - code)

/-- The fault behind an error of the operating system, if it is one that commands know. -/
def fileFault? : IO.Error → Option Files.Fault
  | .noFileOrDirectory _ _ _ => some .notFound
  | .inappropriateType _ code _ => some (if reportsCode code 20 then .notDirectory else .isDirectory)
  | .invalidArgument _ code _ => if reportsCode code 36 then some .nameTooLong else none
  | _ => none

/-- Carries out an action on a file; errors that commands do not know are passed on. -/
def attempt {α : Type} (act : IO α) : IO (Except Files.Fault α) := do
  try
    return .ok (← act)
  catch error =>
    match fileFault? error with
    | some fault => return .error fault
    | none => throw error

/-- Prints the texts of an end and gives its code. -/
def finish (ending : Program.Exit) : IO UInt32 := do
  (← IO.getStdout).putStr ending.output
  (← IO.getStderr).putStr ending.errors
  return ending.code

/-- The real files. -/
def realDisk : Files.Disk IO where
  read file := attempt do return (← IO.FS.readBinFile file).toList
  write file content := attempt (IO.FS.writeBinFile file ⟨content.toArray⟩)

/-- Runs a command on real files. -/
def perform (invocation : Usage.Invocation) (setting : Option String) : IO Program.Exit := do
  let limit := (invocation.resolveLimit setting).value
  match ← invocation.command.perform realDisk { limit } with
  | .ok text => return Program.successExit text
  | .error fault => return Program.failureExit fault

end Polypath

def main (words : List String) : IO UInt32 := do
  match Polypath.Usage.read words with
  | .error stop => Polypath.finish (Polypath.Program.stopExit stop)
  | .ok invocation =>
    let setting ← IO.getEnv Polypath.Limit.settingName
    Polypath.finish (← Polypath.perform invocation setting)
