import Polypath.Json.Fault
import Polypath.Path

/-!
# Printing documents

A path is printed on one line, or with one coordinate a line under an indentation of two spaces a level. A coordinate
that is not finite is printed as `null`.
-/

namespace Polypath.Json

/-- A coordinate as it is printed. -/
def coordText (c : Coord) : List Char :=
  if c.isFinite then finiteText c else ['n', 'u', 'l', 'l']

/-- Texts with a separator between each two. -/
def separated (separator : List Char) : List (List Char) → List Char
  | [] => []
  | [t] => t
  | t :: ts => t ++ separator ++ separated separator ts

/-- A list of coordinates on one line. -/
def compactCoords (values : List Coord) : List Char :=
  '[' :: separated [','] (values.map coordText) ++ [']']

/-- A path on one line. -/
def compactPath (p : Path) : List Char :=
  "\x7b\"id\":".toList ++ Nat.toDigits 10 p.id.toNat ++ ",\"x\":".toList ++ compactCoords p.x ++ ",\"y\":".toList
    ++ compactCoords p.y ++ ['\x7d']

/-- A new line under an indentation of so many levels. -/
def newLine (level : Nat) : List Char := '\n' :: List.replicate (2 * level) ' '

/-- A list of coordinates with one of them a line, inside one level of indentation. -/
def prettyCoords (values : List Coord) : List Char :=
  if values.isEmpty then ['[', ']']
  else '[' :: newLine 2 ++ separated (',' :: newLine 2) (values.map coordText) ++ newLine 1 ++ [']']

/-- A path over several lines. -/
def prettyPath (p : Path) : List Char :=
  '\x7b' :: newLine 1 ++ "\"id\": ".toList ++ Nat.toDigits 10 p.id.toNat ++ ',' :: newLine 1 ++ "\"x\": ".toList
    ++ prettyCoords p.x ++ ',' :: newLine 1 ++ "\"y\": ".toList ++ prettyCoords p.y ++ newLine 0 ++ ['\x7d']

/-- An element limit on one line. -/
def compactLimit (limit : UInt64) : List Char :=
  "\x7b\"max_elements\":".toList ++ Nat.toDigits 10 limit.toNat ++ ['\x7d']

/-- An axis on one line. -/
def compactAxis (axis : Axis) : List Char := '"' :: axis.name.toList ++ ['"']

end Polypath.Json
