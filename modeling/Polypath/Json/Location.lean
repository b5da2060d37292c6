import Polypath.Json.Fault
import Polypath.Text.Utf8

/-!
# Where a document is refused

A reader notices a fault with a part of the text still unread, and the number of bytes in that part fixes the place. The
place is told as a line and a column: lines count from one, and the column is the number of bytes that the line has up
to the place.
-/

namespace Polypath.Json

/-- A fault, and how many bytes of the text lie behind the place where it shows. -/
structure Located where
  fault : Fault
  behind : Nat
deriving DecidableEq, Repr

/-- The fault, showing when so many bytes of an unread text are taken, or all of them if there are fewer. -/
def Fault.past (fault : Fault) (taken : Nat) (unread : List Char) : Located :=
  ⟨fault, Text.byteLength unread - taken⟩

/-- A place in a text. -/
structure Position where
  line : Nat
  column : Nat
deriving DecidableEq, Repr

/-- The place at the end of some bytes. -/
def Position.after (bytes : List UInt8) : Position :=
  ⟨1 + bytes.count 10, (bytes.reverse.takeWhile (· ≠ 10)).length⟩

/-- Why and where a document is refused. -/
structure Refusal where
  fault : Fault
  position : Position
deriving DecidableEq, Repr

/-- The fault with its place in the text that was read. -/
def Located.inText (l : Located) (text : List Char) : Refusal :=
  let bytes := Text.toUtf8 text
  ⟨l.fault, .after (bytes.take (bytes.length - l.behind))⟩

/-- The refusal in words. -/
def Refusal.message (r : Refusal) : String :=
  s!"{r.fault.message} at line {r.position.line} column {r.position.column}"

end Polypath.Json
