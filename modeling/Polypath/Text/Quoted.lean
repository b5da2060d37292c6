import Polypath.Text.Invisible

/-!
# Quoted text

A text in double quotes, written so that everything in it can be seen: quotes and backslashes behind a backslash, the
usual letters for line ends, tabs and NUL, and any other invisible character by its code point.
-/

namespace Polypath.Text

/-- One character inside quotes. -/
def quotedChar (c : Char) : List Char :=
  match c with
  | '"' => ['\\', '"']
  | '\\' => ['\\', '\\']
  | '\n' => ['\\', 'n']
  | '\r' => ['\\', 'r']
  | '\t' => ['\\', 't']
  | '\x00' => ['\\', '0']
  | c =>
    if isInvisible c then ['\\', 'u', '\x7b'] ++ Nat.toDigits 16 c.toNat ++ ['\x7d'] else [c]

/-- A text in quotes. -/
def quoted (s : List Char) : String :=
  String.ofList ('"' :: s.flatMap quotedChar ++ ['"'])

end Polypath.Text
