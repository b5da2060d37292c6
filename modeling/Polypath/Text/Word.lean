/-!
# Decimal words

Reading of an unsigned 64-bit number: an optional plus sign and one or more decimal digits, leading zeros allowed. The
digits are taken from left to right and the first one that cannot be taken decides the fault.
-/

namespace Polypath.Text

/-- Why a text is no 64-bit number. -/
inductive WordFault where
  | empty
  | invalidDigit
  | tooLarge
deriving DecidableEq, Repr

namespace WordFault

/-- The fault in words. -/
def message : WordFault → String
  | .empty => "cannot parse integer from empty string"
  | .invalidDigit => "invalid digit found in string"
  | .tooLarge => "number too large to fit in target type"

end WordFault

/-- The value of a decimal digit. -/
def digit? (c : Char) : Option Nat :=
  if c.isDigit then some (c.toNat - '0'.toNat) else none

/-- Appends decimal digits to a number, which has to stay below `2 ^ 64`. -/
def appendDigits : Nat → List Char → Except WordFault Nat
  | n, [] => .ok n
  | n, c :: cs =>
    match digit? c with
    | none => .error .invalidDigit
    | some d => if 10 * n + d < UInt64.size then appendDigits (10 * n + d) cs else .error .tooLarge

/-- The number that a text writes. -/
def readWord (s : List Char) : Except WordFault UInt64 :=
  match s with
  | [] => .error .empty
  | '+' :: [] => .error .invalidDigit
  | '+' :: digits => UInt64.ofNat <$> appendDigits 0 digits
  | digits => UInt64.ofNat <$> appendDigits 0 digits

end Polypath.Text
