import Polypath.Coord
import Polypath.Decimal.Magnitude

/-!
# Numerals

A numeral is a number as it is written: sign, digits, fraction and exponent. Its value is found by a quick rule and not
by correct rounding: as many digits as fit are gathered in a 64-bit word, the word is rounded to a binary64 number, and
that is multiplied or divided by a rounded power of ten.
-/

namespace Polypath.Decimal

/-- A number as it is written. -/
structure Numeral where
  negative : Bool
  whole : List Nat
  fraction : Option (List Nat)
  /-- Whether the exponent is negative, and its digits. -/
  exponent : Option (Bool × List Nat)
deriving DecidableEq, Repr

/-- What a numeral stands for: an integer that fits a word, or else a binary64 number. -/
inductive Number where
  | natural (n : Nat)
  /-- The number `-n`. -/
  | negative (n : Nat)
  | real (c : Coord)
deriving DecidableEq, Repr

/-- Appends digits to a number as long as it stays below `2 ^ 64`, and gives back the digits left over. -/
def absorb : Nat → List Nat → Nat × List Nat
  | n, [] => (n, [])
  | n, d :: ds => if 10 * n + d < UInt64.size then absorb (10 * n + d) ds else (n, d :: ds)

/-- The number that digits write. -/
def ofDigits (ds : List Nat) : Nat := ds.foldl (fun n d => 10 * n + d) 0

/-- How many digits follow the one with which a number outgrows a limit; none if it never does. -/
def digitsPast (limit : Nat) : Nat → List Nat → Nat
  | _, [] => 0
  | n, d :: ds => if limit < 10 * n + d then ds.length else digitsPast limit (10 * n + d) ds

/-- The largest exponent of a power of ten that is used in one step. -/
def maxStep : Nat := 308

/-- Scales a finite pattern by a power of ten, in several steps if the power is very small. Nothing comes of a
result that is too large. -/
def scale (pattern : Nat) (e : Int) : Option Nat :=
  if 0 ≤ e then
    if pattern = 0 then some 0
    else if maxStep < e.toNat then none
    else
      let result := product pattern (powerOfTen e.toNat)
      if result < Coord.infinity then some result else none
  else if (-e).toNat ≤ maxStep then some (quotient pattern (powerOfTen (-e).toNat))
  else if pattern = 0 then some 0
  else scale (quotient pattern (powerOfTen maxStep)) (e + maxStep)
termination_by (-e).toNat
decreasing_by simp only [maxStep] at *; omega

namespace Numeral

/-- The exponent that a numeral writes. -/
def writtenExponent (n : Numeral) : Int :=
  match n.exponent with
  | none => 0
  | some (true, ds) => -(ofDigits ds : Int)
  | some (false, ds) => ofDigits ds

/-- How many digits of the exponent follow the one with which it outgrows a signed 32-bit word. -/
def exponentExcess (n : Numeral) : Nat :=
  match n.exponent with
  | none => 0
  | some (_, ds) => digitsPast (UInt32.size / 2 - 1) 0 ds

/-- The value of a numeral as a binary64 number, if it is not too large. -/
def real? (n : Numeral) : Option Coord :=
  let (word, left) := absorb 0 n.whole
  let fraction := n.fraction.getD []
  let (word, ignored) := absorb word fraction
  let places : Int := (left.length : Int) - (fraction.length - ignored.length : Nat)
  (scale (nearest word 1) (places + n.writtenExponent)).map (Coord.ofParts n.negative)

/-- The value of a numeral, if it is not too large. -/
def value? (n : Numeral) : Option Number :=
  match n.fraction, n.exponent, absorb 0 n.whole with
  | none, none, (word, []) =>
    if !n.negative then some (.natural word)
    else if 0 < word ∧ word ≤ UInt64.size / 2 then some (.negative word)
    else some (.real (.ofParts true (nearest word 1)))
  | _, _, _ => n.real?.map .real

end Numeral

namespace Number

/-- The number as a coordinate. -/
def toCoord : Number → Coord
  | .natural n => .ofParts false (nearest n 1)
  | .negative n => .ofParts true (nearest n 1)
  | .real c => c

end Number

end Polypath.Decimal
