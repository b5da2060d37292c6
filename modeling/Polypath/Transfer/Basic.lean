import Polypath.Store.Basic
import Polypath.Text.Blank
import Polypath.Text.Utf8

/-!
# Moving paths

A path travels as a buffer, as a file that holds one buffer, or as base64url text of one buffer, and it travels into and
out of a store. All three ways use the same format, so they refuse the same paths for the same reason. Writing a file is
an act on the files and storing a path one on the store; all that is moved is looked at first.
-/

namespace Polypath.Transfer

open Journal Wire

/-! ## Buffers -/

/-- Writes a path as a buffer. -/
def encode (f : Format) (p : Path) : Report Fault (List UInt8) := do
  let bytes ← Report.ofExcept .buffer (f.encode p)
  Report.tell (.encoded p.id f.revision.tag bytes.length)
  return bytes

/-- Reads a buffer of a revision as a path, and tells if it is refused. -/
def decodeAs (f : Format) (revision : Revision) (bytes : List UInt8) : Report Fault Path :=
  let outcome := f.decodeAs revision bytes
  let refusal := match outcome with
    | .ok _ => []
    | .error fault => [.rejected bytes.length fault]
  ExceptT.mk ⟨outcome.mapError .buffer, refusal⟩

/-- Reads a buffer as a path. A buffer that is refused before its revision is known is not mentioned. -/
def decode (f : Format) (reported : Option Nat) (bytes : List UInt8) : Report Fault Path := do
  Report.ofExcept .buffer (checkReported reported bytes)
  let revision ← Report.ofExcept .buffer (readRevision bytes)
  let p ← decodeAs f revision bytes
  Report.tell (.decoded p.id revision.tag bytes.length)
  return p

/-- Reads a buffer whose length is known. -/
def decodeWhole (f : Format) (bytes : List UInt8) : Report Fault Path := decode f (some bytes.length) bytes

/-! ## Text -/

/-- Writes a path as text. -/
def toText (f : Format) (p : Path) : Report Fault String := do
  let bytes ← encode f p
  return Text.ofAscii (Text.Base64Url.encode bytes)

/-- Reads text as a path. Blanks around the text do not count. -/
def ofText (f : Format) (text : String) : Report Fault Path := do
  let bytes ← Report.ofExcept .text (Text.Base64Url.decode (Text.toUtf8 (Text.trim text.toList)))
  decodeWhole f bytes

/-! ## Files -/

/-- Makes a file hold the given bytes and nothing else. -/
def putFile (file : String) (bytes : List UInt8) : Act Files.Tree Files.Fault Unit := do
  let place ← Act.ask fun tree => tree.target file
  Act.change fun tree => tree.put place (.file bytes)

/-- Writes a path as a file. -/
def writeFile (f : Format) (file : String) (p : Path) : Act Files.Tree Fault Unit := do
  let bytes ← Act.ofReport (encode f p)
  Act.adapt .file (putFile file bytes)
  Act.tell (.wroteFile bytes.length file)

/-- Reads what a file held as a path. -/
def ofFile (f : Format) (file : String) (content : Except Files.Fault (List UInt8)) : Report Fault Path := do
  let bytes ← Report.ofExcept .file content
  Report.tell (.readFile bytes.length file)
  decodeWhole f bytes

/-- Reads a file as a path. -/
def readFile (f : Format) (tree : Files.Tree) (file : String) : Report Fault Path := ofFile f file (tree.read file)

/-! ## Stores -/

/-- The path of a handle. -/
def fetch (s : Store) (h : Handle) : Report Fault Path := Report.ofExcept .store (s.get h)

/-- Stores a path that has arrived. -/
def accept (p : Path) : Act Store Fault Handle := Act.adapt .store (Store.insert p)

/-- Writes a stored path as a buffer. -/
def serialize (f : Format) (s : Store) (h : Handle) : Report Fault (List UInt8) := do
  encode f (← fetch s h)

/-- Writes a stored path as text. -/
def serializeText (f : Format) (s : Store) (h : Handle) : Report Fault String := do
  toText f (← fetch s h)

/-- Writes a stored path as a file. -/
def serializeFile (f : Format) (s : Store) (h : Handle) (file : String) : Act Files.Tree Fault Unit := do
  writeFile f file (← Act.ofReport (fetch s h))

/-- Stores the path of a buffer. -/
def deserialize (f : Format) (reported : Option Nat) (bytes : List UInt8) : Act Store Fault Handle := do
  accept (← Act.ofReport (decode f reported bytes))

/-- Stores the path of a text. -/
def deserializeText (f : Format) (text : String) : Act Store Fault Handle := do
  accept (← Act.ofReport (ofText f text))

/-- Stores the path of a file. -/
def deserializeFile (f : Format) (tree : Files.Tree) (file : String) : Act Store Fault Handle := do
  accept (← Act.ofReport (readFile f tree file))

end Polypath.Transfer
