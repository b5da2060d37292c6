import Polypath.Files.Name

/-!
# File trees

What stands below the root of a file system, one of whose directories is the working directory. A name with a slash in
front is followed from the root and every other name from the working directory, part by part, each part but the last
through a directory, and the first part that cannot be followed decides the fault. Reading changes nothing, and writing
changes only the content of the file it names.
-/

namespace Polypath.Files

/-- Why a file is not read or written. -/
inductive Fault where
  | notFound
  | notDirectory
  | isDirectory
  | nameTooLong
  /-- A name with a zero byte in it. -/
  | zeroInName
  | notText
deriving DecidableEq, Repr

namespace Fault

/-- The fault in words. -/
def message : Fault → String
  | .notFound => "No such file or directory (os error 2)"
  | .notDirectory => "Not a directory (os error 20)"
  | .isDirectory => "Is a directory (os error 21)"
  | .nameTooLong => "File name too long (os error 36)"
  | .zeroInName => "file name contained an unexpected NUL byte"
  | .notText => "stream did not contain valid UTF-8"

end Fault

/-- A place in a tree: the names on the way to it from the root, the innermost first. -/
structure Place where
  names : List String
deriving DecidableEq, Repr

namespace Place

/-- The root. -/
def root : Place := ⟨[]⟩

/-- The place one name further down. -/
def child (p : Place) (name : String) : Place := ⟨name :: p.names⟩

/-- The place that holds this one. The root holds itself. -/
def parent (p : Place) : Place := ⟨p.names.tail⟩

/-- Whether a place is the other one or lies on the way to it. -/
def leadsTo (p q : Place) : Bool := p.names.isSuffixOf q.names

/-- The place as a name, seen from one that leads to it. -/
def nameFrom (p start : Place) : String :=
  "/".intercalate (p.names.take (p.names.length - start.names.length)).reverse

end Place

/-- What stands at a place. -/
inductive Entry where
  | directory
  | file (content : List UInt8)
deriving DecidableEq, Repr

/-- The working directory and the entries of a tree. The working directory and those above it are there without being
listed. -/
structure Tree where
  home : Place
  entries : List (Place × Entry)
deriving DecidableEq, Repr

namespace Tree

/-- The tree around an empty working directory. -/
def empty : Tree := ⟨Place.root.child "work", []⟩

/-- What stands at a place, if anything does. -/
def entry? (t : Tree) (p : Place) : Option Entry :=
  if p.leadsTo t.home then some .directory else t.entries.lookup p

/-- The tree with an entry put at a place, in place of what stood there. -/
def put (t : Tree) (p : Place) (e : Entry) : Tree :=
  { t with entries := (p, e) :: t.entries.filter fun other => other.1 ≠ p }

/-- The largest number of bytes in one part of a name. -/
def maxPartLength : Nat := 255

/-- The largest number of bytes in a name. -/
def maxNameLength : Nat := 4095

/-- Follows one part from a directory into a directory. -/
def enter (t : Tree) (dir : Place) (part : String) : Except Fault Place :=
  if part = "." then .ok dir
  else if part = ".." then .ok dir.parent
  else if maxPartLength < part.utf8ByteSize then .error .nameTooLong
  else
    match t.entry? (dir.child part) with
    | none => .error .notFound
    | some (.file _) => .error .notDirectory
    | some .directory => .ok (dir.child part)

/-- Follows parts from a directory into a directory. -/
def enterAll (t : Tree) : Place → List String → Except Fault Place
  | dir, [] => .ok dir
  | dir, part :: parts =>
    match t.enter dir part with
    | .ok next => t.enterAll next parts
    | .error fault => .error fault

/-- The directory from which a name is followed. -/
def start (t : Tree) (name : String) : Place := if startsInSlash name then .root else t.home

/-- The directory in which the last part of a name is looked up; a name with a zero byte is not looked up at all. -/
def directoryOf (t : Tree) (name : String) : Except Fault Place :=
  if name.toList.contains '\x00' then .error .zeroInName
  else if name = "" then .error .notFound
  else if maxNameLength < name.utf8ByteSize then .error .nameTooLong
  else t.enterAll (t.start name) (parts name).dropLast

/-- The last part of a name, if it names an entry of its own. -/
def lastName? (name : String) : Option String :=
  (parts name).getLast?.filter fun part => part ≠ "." && part ≠ ".."

/-- The content of the file that a name leads to. -/
def read (t : Tree) (name : String) : Except Fault (List UInt8) := do
  let dir ← t.directoryOf name
  match lastName? name with
  | none => throw .isDirectory
  | some part =>
    if maxPartLength < part.utf8ByteSize then throw .nameTooLong
    match t.entry? (dir.child part) with
    | none => throw .notFound
    | some .directory => throw .isDirectory
    | some (.file content) => if endsInSlash name then throw .notDirectory else return content

/-- The place of the file that is written under a name. -/
def target (t : Tree) (name : String) : Except Fault Place := do
  let dir ← t.directoryOf name
  match lastName? name with
  | none => throw .isDirectory
  | some part =>
    if endsInSlash name then throw .isDirectory
    if maxPartLength < part.utf8ByteSize then throw .nameTooLong
    match t.entry? (dir.child part) with
    | some .directory => throw .isDirectory
    | _ => return dir.child part

/-- The tree after the file of a name has been made to hold the given content and nothing else. -/
def write (t : Tree) (name : String) (content : List UInt8) : Except Fault Tree := do
  let place ← t.target name
  return t.put place (.file content)

/-- Follows one part from a directory into a directory, which is made if nothing stands there. -/
def enterMaking (t : Tree) (dir : Place) (part : String) : Except Fault (Tree × Place) :=
  match t.enter dir part with
  | .ok next => .ok (t, next)
  | .error .notFound => .ok (t.put (dir.child part) .directory, dir.child part)
  | .error fault => .error fault

/-- The tree with the directory that a name leads to, and with all directories on the way. -/
def makeDirectory (t : Tree) (name : String) : Except Fault Tree :=
  Prod.fst <$> (parts name).foldlM (fun (t, dir) part => t.enterMaking dir part) (t, t.start name)

/-- The files below the working directory, by name. -/
def files (t : Tree) : List (String × List UInt8) :=
  t.entries.filterMap fun (p, e) =>
    match e with
    | .file content => if t.home.leadsTo p then some (p.nameFrom t.home, content) else none
    | .directory => none

end Tree

end Polypath.Files
