import Polypath.Command.Usage
import Polypath.Limit.Reports

/-!
# The program

A run of the program: from the words of the command line, the setting of the element limit and the files to what is
printed and to the files afterwards.
-/

namespace Polypath

open Journal Wire

namespace Usage.Invocation

/-- The element limit of a run: the one given, or else the one of the setting. -/
def resolveLimit (i : Invocation) (setting : Option String) : Logged UInt64 :=
  match i.limit with
  | some limit => pure limit
  | none => Limit.resolve setting

/-- Runs a command on a file tree and gives what it prints. -/
def run (i : Invocation) (setting : Option String) (tree : Files.Tree) :
    Report Command.Fault (String × Files.Tree) := do
  let limit ← ExceptT.lift (i.resolveLimit setting)
  i.command.run { limit } tree

end Usage.Invocation

namespace Program

/-- How a run ends. -/
structure Exit where
  code : UInt32
  output : String
  errors : String
deriving DecidableEq, Repr

/-- The name and version of the program. -/
def versionText : String := "tsf 0.1.0"

/-- How the program is used. -/
def usageText : String :=
  "Usage: tsf [OPTIONS] <COMMAND>\n\nCommands:\n" ++
  "  inspect <FILE>           Print the header and sequence lengths of a TSF file\n" ++
  "  dump [--pretty] <FILE>   Print a TSF file as JSON\n" ++
  "  pack <JSON> <OUT>        Build a TSF file from a JSON path\n" ++
  "  to-base64 <FILE>         Print a TSF file as base64url text\n" ++
  "  from-base64 <TEXT> <OUT> Decode base64url text into a TSF file\n" ++
  "  help [COMMAND]           Print this message\n\nOptions:\n" ++
  "      --max-elements <N>   Largest sequence length read or written\n" ++
  "  -h, --help               Print help\n" ++
  "  -V, --version            Print version\n"

/-- What is wrong with a command line, in words. -/
def stopText : Usage.Stop → String
  | .missingCommand => "error: a subcommand is required\n\n"
  | .unknownCommand => "error: unrecognized subcommand\n\n"
  | .unknownArgument => "error: unexpected argument\n\n"
  | .invalidNumber => "error: invalid value for '--max-elements <N>'\n\n"
  | .noValue => "error: a value is required but none was supplied\n\n"
  | .repeatedOption => "error: an option cannot be used multiple times\n\n"
  | .unwantedValue => "error: a value was given to an option that takes none\n\n"
  | .missingArgument => "error: required arguments were not provided\n\n"
  | .help | .version | .helpOnNothing => ""

/-- The end of a run in which there was nothing to do. -/
def stopExit (stop : Usage.Stop) : Exit :=
  match stop with
  | .help => ⟨stop.exitCode, usageText, ""⟩
  | .version => ⟨stop.exitCode, versionText ++ "\n", ""⟩
  | _ => ⟨stop.exitCode, "", stopText stop ++ usageText⟩

/-- The end of a run that printed a text. -/
def successExit (text : String) : Exit := ⟨0, text ++ "\n", ""⟩

/-- The end of a run that failed. -/
def failureExit (fault : Command.Fault) : Exit := ⟨1, "", "Error: " ++ fault.message ++ "\n"⟩

/-- One run. -/
def run (words : List String) (setting : Option String) (tree : Files.Tree) : Exit × Files.Tree :=
  match Usage.read words with
  | .error stop => (stopExit stop, tree)
  | .ok invocation =>
    match (invocation.run setting tree).outcome with
    | .ok (text, tree) => (successExit text, tree)
    | .error fault => (failureExit fault, tree)

end Program

end Polypath
