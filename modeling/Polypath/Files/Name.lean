/-!
# File names

A name is a text whose parts stand between slashes. The parts `.` and the empty part lead nowhere; a name's extension is
looked for in its last part that leads somewhere.
-/

namespace Polypath.Files

/-- The pieces of a text between separators. -/
def pieces (separator : Char) : List Char → List (List Char)
  | [] => [[]]
  | c :: cs =>
    match pieces separator cs with
    | [] => [[c]]
    | piece :: rest => if c = separator then [] :: piece :: rest else (c :: piece) :: rest

/-- The parts of a name, without the empty ones. -/
def parts (name : String) : List String :=
  ((pieces '/' name.toList).filter fun part => !part.isEmpty).map String.ofList

/-- Whether a slash stands in front of the name. -/
def startsInSlash (name : String) : Bool := name.toList.head? == some '/'

/-- Whether a slash ends the name. -/
def endsInSlash (name : String) : Bool := name.toList.getLast? == some '/'

/-- What follows the last dot of a part; a dot that only stands in front starts no extension. -/
def partExtension? (part : String) : Option (List Char) :=
  let ending := part.toList.reverse.takeWhile (· ≠ '.')
  let front := part.toList.reverse.dropWhile (· ≠ '.')
  if part = ".." then none else if 2 ≤ front.length then some ending.reverse else none

/-- The extension of a name. -/
def extension? (name : String) : Option (List Char) :=
  ((parts name).filter (· ≠ ".")).getLast?.bind partExtension?

/-- The extension of files that hold one buffer. -/
def bufferExtension : String := "tsf"

/-- Whether a name has the extension of buffer files, in any mix of small and capital letters. -/
def hasBufferExtension (name : String) : Bool :=
  (extension? name).any fun extension => extension.map Char.toLower = bufferExtension.toList

end Polypath.Files
