import Polypath.Files.Disk
import Polypath.Json.Document
import Polypath.Json.Printer
import Polypath.Transfer.Basic

/-!
# Commands

What can be done to files of buffers from a command line. A command looks at files, decides what to print and perhaps
what to write, and only then is a file changed: `Command.decide` is the whole of the thinking. `Command.run` carries it
out on a file tree and tells what happens, and `Command.perform` carries it out on any disk.
-/

namespace Polypath

open Journal Wire

/-- The commands. -/
inductive Command where
  /-- Print the header and the sequence lengths of a file. -/
  | inspect (file : String)
  /-- Print a file as a document. -/
  | dump (file : String) (pretty : Bool)
  /-- Write a document as a file. -/
  | pack (document out : String)
  /-- Print a file as text. -/
  | toBase64 (file : String)
  /-- Write text as a file. -/
  | fromBase64 (text out : String)
deriving DecidableEq, Repr

namespace Command

/-- Why a command fails. -/
inductive Fault where
  | transfer (fault : Transfer.Fault)
  | file (fault : Files.Fault)
  | document (refusal : Json.Refusal)
deriving DecidableEq, Repr

namespace Fault

/-- The fault in words. -/
def message : Fault → String
  | .transfer fault => fault.message
  | .file fault => "I/O error: " ++ fault.message
  | .document refusal => "JSON error: " ++ refusal.message

end Fault

/-- What a command comes to: something to print, after writing a file or not. -/
inductive Decision where
  | print (text : String)
  | write (file : String) (content : List UInt8) (text : String)
deriving DecidableEq, Repr

/-- A way to look at files. -/
abbrev Reader := String → Except Files.Fault (List UInt8)

/-- The file that a command looks at. -/
def source? : Command → Option String
  | .inspect file | .dump file _ | .toBase64 file => some file
  | .pack document _ => some document
  | .fromBase64 _ _ => none

/-- The path that a file holds as a buffer. -/
def readBuffer (f : Format) (read : Reader) (file : String) : Report Fault Path :=
  ExceptT.adapt .transfer (Transfer.ofFile f file (read file))

/-- The path that a file holds as a document. -/
def readDocumentFile (read : Reader) (file : String) : Report Fault Path := do
  let bytes ← Report.ofExcept .file (read file)
  match Text.ofUtf8? bytes with
  | none => throw (.file .notText)
  | some text => Report.ofExcept .document (Json.readPath text.toList)

/-- Decides to write a path as a file. -/
def decideWrite (f : Format) (out : String) (p : Path) : Report Fault Decision := do
  if !Files.hasBufferExtension out then Report.tell (.unusualName out)
  let bytes ← ExceptT.adapt .transfer (Transfer.encode f p)
  return .write out bytes s!"wrote path {p.id} ({p.x.length} x, {p.y.length} y) to {out}"

/-- What a command comes to. -/
def decide (f : Format) (read : Reader) : Command → Report Fault Decision
  | .inspect file => do
    let bytes ← Report.ofExcept .file (read file)
    let header ← Report.ofExcept (fun fault => .transfer (.buffer fault)) (peekHeader bytes)
    let p ← ExceptT.adapt .transfer (Transfer.decodeWhole f bytes)
    return .print s!"{file} ({bytes.length} bytes)\n{header.text}\ny_count={p.y.length}"
  | .dump file pretty => do
    let p ← readBuffer f read file
    return .print (String.ofList (if pretty then Json.prettyPath p else Json.compactPath p))
  | .pack document out => do
    decideWrite f out (← readDocumentFile read document)
  | .toBase64 file => do
    let p ← readBuffer f read file
    return .print (← ExceptT.adapt .transfer (Transfer.toText f p))
  | .fromBase64 text out => do
    decideWrite f out (← ExceptT.adapt .transfer (Transfer.ofText f text))

/-- Runs a command on a file tree. -/
def run (f : Format) (tree : Files.Tree) (c : Command) : Report Fault (String × Files.Tree) := do
  match ← c.decide f tree.read with
  | .print text => return (text, tree)
  | .write file content text =>
    let tree ← Report.ofExcept (fun fault => .transfer (.file fault)) (tree.write file content)
    Report.tell (.wroteFile content.length file)
    return (text, tree)

/-- Carries out on a disk what a command comes to. -/
def carryOut {m : Type → Type} [Monad m] (disk : Files.Disk m) : Except Fault Decision → m (Except Fault String)
  | .error fault => return .error fault
  | .ok (.print text) => return .ok text
  | .ok (.write file content text) => do
    match ← disk.write file content with
    | .ok () => return .ok text
    | .error fault => return .error (.transfer (.file fault))

/-- Carries a command out on a disk: its file is read, and a file is written after everything else or not at all. -/
def perform {m : Type → Type} [Monad m] (disk : Files.Disk m) (f : Format) (c : Command) :
    m (Except Fault String) := do
  let content ← match c.source? with
    | some file => disk.read file
    | none => pure (.ok [])
  carryOut disk (c.decide f fun _ => content).outcome

end Command

end Polypath
