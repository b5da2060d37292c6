import Polypath.Command.Basic
import Polypath.Text.Word

/-!
# Reading a command line

The words of a command line are read from left to right, first those before the command's name and then those behind it.
A value is examined when the next word of its side has found its place, or at the end; a word that finds no place ends
the reading before that. So the last value before the command's name is examined after everything behind it.
-/

namespace Polypath.Usage

/-- Why there is nothing to run. -/
inductive Stop where
  | help
  | version
  /-- Nothing was asked for. -/
  | helpOnNothing
  | missingCommand
  | unknownCommand
  | unknownArgument
  /-- A value that is no 64-bit number. -/
  | invalidNumber
  /-- A value that is not there or may not be empty. -/
  | noValue
  | repeatedOption
  | unwantedValue
  | missingArgument
deriving DecidableEq, Repr

namespace Stop

/-- Help and the version are given when they are asked for; everything else is a mistake. -/
def exitCode : Stop → UInt32
  | .help | .version => 0
  | _ => 2

end Stop

/-- What the command line asks for. -/
structure Invocation where
  /-- The element limit, if it is given. -/
  limit : Option UInt64
  command : Command
deriving DecidableEq, Repr

/-! ## Words -/

/-- A word by its look. -/
inductive Word where
  /-- Two dashes alone. -/
  | separator
  /-- Two dashes and a name, and a value behind an equals sign. -/
  | long (name : String) (value : Option String)
  /-- One dash and letters, of which the first is told. -/
  | short (letter : Char)
  | plain
deriving DecidableEq, Repr

/-- What stands in front of the first equals sign, and what behind it. -/
def splitValue (s : List Char) : String × Option String :=
  let name := String.ofList (s.takeWhile (· ≠ '='))
  match s.dropWhile (· ≠ '=') with
  | [] => (name, none)
  | _ :: value => (name, some (String.ofList value))

/-- The look of a word. -/
def classify (word : String) : Word :=
  match word.toList with
  | ['-', '-'] => .separator
  | '-' :: '-' :: rest => .long (splitValue rest).1 (splitValue rest).2
  | '-' :: letter :: _ => .short letter
  | _ => .plain

/-- The name of the option for the element limit. -/
def limitOption : String := "max-elements"

/-! ## Commands by name -/

/-- The kinds of arguments without a name. -/
inductive Argument where
  /-- The name of a file, which is not empty. -/
  | file
  | text
deriving DecidableEq, Repr

/-- The commands, without their arguments. -/
inductive Verb where
  | inspect
  | dump
  | pack
  | toBase64
  | fromBase64
deriving DecidableEq, Repr

namespace Verb

/-- All commands. -/
def all : List Verb := [.inspect, .dump, .pack, .toBase64, .fromBase64]

/-- The word that names a command. -/
def name : Verb → String
  | .inspect => "inspect"
  | .dump => "dump"
  | .pack => "pack"
  | .toBase64 => "to-base64"
  | .fromBase64 => "from-base64"

/-- The command that a word names. -/
def ofName? (word : String) : Option Verb := all.find? fun v => v.name = word

/-- The arguments of a command, in their order. -/
def arguments : Verb → List Argument
  | .inspect | .dump | .toBase64 => [.file]
  | .pack => [.file, .file]
  | .fromBase64 => [.text, .file]

/-- Whether the command has an option for printing over several lines. -/
def hasPretty : Verb → Bool
  | .dump => true
  | _ => false

/-- The command with its arguments, if they are all there. -/
def command? (verb : Verb) (pretty : Bool) (arguments : List String) : Option Command :=
  match verb, arguments with
  | .inspect, [file] => some (.inspect file)
  | .dump, [file] => some (.dump file pretty)
  | .pack, [document, out] => some (.pack document out)
  | .toBase64, [file] => some (.toBase64 file)
  | .fromBase64, [text, out] => some (.fromBase64 text out)
  | _, _ => none

end Verb

/-- The word that asks for help. -/
def helpName : String := "help"

/-- Whether a word names a command, the one that asks for help included. -/
def namesCommand (word : String) : Bool := word = helpName || (Verb.ofName? word).isSome

/-! ## Gathering values -/

/-- A value that has not been examined. -/
inductive Pending where
  | limit (value : Option String)
  | argument (value : String)
deriving DecidableEq, Repr

/-- What has been gathered: examined values, and the one that is not examined yet. -/
structure Draft where
  limit : Option UInt64
  pretty : Bool
  arguments : List String
  pending : Option Pending
deriving DecidableEq, Repr

namespace Draft

/-- Nothing has been gathered. -/
def empty : Draft := ⟨none, false, [], none⟩

/-- The draft with a limit, which may be given once. -/
def setLimit (d : Draft) (value : String) : Except Stop Draft :=
  if d.limit.isSome then .error .repeatedOption
  else
    match Text.readWord value.toList with
    | .ok limit => .ok { d with limit := some limit }
    | .error _ => .error .invalidNumber

/-- The draft with a further argument of one of the wanted kinds. -/
def addArgument (wanted : List Argument) (d : Draft) (value : String) : Except Stop Draft :=
  if wanted[d.arguments.length]? = some .file ∧ value = "" then .error .noValue
  else .ok { d with arguments := d.arguments ++ [value] }

/-- Examines the pending value. -/
def settle (wanted : List Argument) (d : Draft) : Except Stop Draft :=
  let settled := { d with pending := none }
  match d.pending with
  | none => .ok settled
  | some (.limit none) => .error .noValue
  | some (.limit (some value)) => settled.setLimit value
  | some (.argument value) => settled.addArgument wanted value

/-- Whether the last word was an option that still has to get its value. -/
def awaitsValue (d : Draft) : Bool := d.pending = some (.limit none)

/-- The number of arguments, the pending one included. -/
def argumentCount (d : Draft) : Nat :=
  match d.pending with
  | some (.argument _) => d.arguments.length + 1
  | _ => d.arguments.length

/-- Takes a word as an argument. -/
def takeArgument (wanted : List Argument) (d : Draft) (word : String) : Except Stop Draft := do
  if wanted.length ≤ d.argumentCount then throw .unknownArgument
  let d ← d.settle wanted
  return { d with pending := some (.argument word) }

/-- Takes the option for the element limit, with its value or before it. -/
def takeLimit (wanted : List Argument) (d : Draft) (value : Option String) : Except Stop Draft := do
  let d ← d.settle wanted
  match value with
  | some value => d.setLimit value
  | none => return { d with pending := some (.limit none) }

/-- Takes an option that ends the reading. -/
def takeStop (wanted : List Argument) (d : Draft) (stop : Stop) (value : Option String) : Except Stop Draft :=
  match value with
  | some _ => .error .unwantedValue
  | none => do
    let _ ← d.settle wanted
    throw stop

/-- Takes the option for printing over several lines, which may be given once. -/
def takePretty (wanted : List Argument) (d : Draft) (value : Option String) : Except Stop Draft :=
  match value with
  | some _ => .error .unwantedValue
  | none => do
    let d ← d.settle wanted
    if d.pretty then throw .repeatedOption
    return { d with pretty := true }

end Draft

/-! ## Behind the command's name -/

/-- Takes one word behind the name of a command. -/
def takeWord (verb : Verb) (d : Draft) (word : String) : Except Stop Draft :=
  match classify word with
  | .long name value =>
    if name = limitOption then d.takeLimit verb.arguments value
    else if name = helpName then d.takeStop verb.arguments .help value
    else if name = "pretty" ∧ verb.hasPretty then d.takePretty verb.arguments value
    else .error .unknownArgument
  | .short letter => if letter = 'h' then d.takeStop verb.arguments .help none else .error .unknownArgument
  | .separator | .plain =>
    if d.awaitsValue then .ok { d with pending := some (.limit (some word)) }
    else d.takeArgument verb.arguments word

/-- Takes the words behind two dashes, which are all arguments. -/
def takeArguments (verb : Verb) : Draft → List String → Except Stop Draft
  | d, [] => .ok d
  | d, word :: words => do takeArguments verb (← d.takeArgument verb.arguments word) words

/-- Takes the words behind the name of a command. -/
def takeWords (verb : Verb) : Draft → List String → Except Stop Draft
  | d, [] => .ok d
  | d, word :: words =>
    if word = "--" then takeArguments verb d words
    else do takeWords verb (← takeWord verb d word) words

/-- Reads the words behind the name of a command. -/
def readCommand (verb : Verb) (words : List String) : Except Stop Invocation := do
  let d ← takeWords verb .empty words
  let d ← d.settle verb.arguments
  match verb.command? d.pretty d.arguments with
  | some command => return ⟨d.limit, command⟩
  | none => throw .missingArgument

/-! ## Before the command's name -/

/-- The words behind `help` name at most one command. -/
def readHelp : List String → Stop
  | [] => .help
  | [word] => if namesCommand word then .help else .unknownCommand
  | _ => .unknownCommand

/-- What is amiss with a word behind two dashes, where no command can be named any more. -/
def strayWord (word : String) : Stop := if namesCommand word then .unknownArgument else .unknownCommand

/-- What is amiss if no command is named. -/
def readNothing (d : Draft) : Except Stop Invocation := do
  let d ← d.settle []
  throw (if d.limit.isSome then .missingCommand else .helpOnNothing)

/-- Reads words up to the name of a command, and then the command. -/
def readFrom : Draft → List String → Except Stop Invocation
  | d, [] => readNothing d
  | d, word :: words =>
    match classify word with
    | .separator =>
      match words with
      | [] => readNothing d
      | stray :: _ => .error (strayWord stray)
    | .long name value =>
      if name = limitOption then do readFrom (← d.takeLimit [] value) words
      else if name = helpName then do readFrom (← d.takeStop [] .help value) words
      else if name = "version" then do readFrom (← d.takeStop [] .version value) words
      else .error .unknownArgument
    | .short letter =>
      if letter = 'h' then do readFrom (← d.takeStop [] .help none) words
      else if letter = 'V' then do readFrom (← d.takeStop [] .version none) words
      else .error .unknownArgument
    | .plain =>
      if d.awaitsValue then readFrom { d with pending := some (.limit (some word)) } words
      else if word = helpName then .error (readHelp words)
      else
        match Verb.ofName? word with
        | none => .error .unknownCommand
        | some verb => do
          let invocation ← readCommand verb words
          let d ← d.settle []
          return { invocation with limit := invocation.limit <|> d.limit }

/-- Reads a command line. -/
def read (words : List String) : Except Stop Invocation := readFrom .empty words

end Polypath.Usage
