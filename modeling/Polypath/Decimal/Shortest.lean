import Polypath.Decimal.Magnitude

/-!
# Shortest decimals

The decimal with the fewest digits that reads back as a given number; of several, the one nearest to the number, and of
two equally near the even one. For each number of digits only the two neighbours of the number on that decimal grid are
looked at.
-/

namespace Polypath.Decimal

/-- A decimal: its digits and the power of ten at which the first one stands. -/
structure Figures where
  digits : List Char
  exponent : Int
deriving DecidableEq, Repr

/-- The number of decimal digits of a natural number. -/
def digitCount (n : Nat) : Nat := (Nat.toDigits 10 n).length

/-- The exponent of the largest power of ten that is no larger than a positive ratio. -/
def floorLogTen (num den : Nat) : Int :=
  if den ≤ num then (digitCount (num / den) : Int) - 1
  else -(digitCount ((num - 1 + den) / num - 1) : Int)

/-- Whether `n * 10 ^ k` reads back as a pattern. -/
def readsBack (pattern n : Nat) (k : Int) : Bool :=
  nearest (n * Nat.pow 10 k.toNat) (Nat.pow 10 (-k).toNat) = pattern

/-- The neighbour of a finite number among the multiples of `10 ^ k` that reads back, the better one if both do. -/
def onGrid (pattern : Nat) (k : Int) : Option Nat :=
  let num := numerator pattern * Nat.pow 10 (-k).toNat
  let den := denominator pattern * Nat.pow 10 k.toNat
  let below := num / den
  match readsBack pattern below k, readsBack pattern (below + 1) k with
  | true, true => some (roundDiv num den)
  | true, false => some below
  | false, true => some (below + 1)
  | false, false => none

/-- The decimal `n * 10 ^ k`, without zeros at its end. -/
def ofMultiple (n : Nat) (k : Int) : Figures :=
  let digits := Nat.toDigits 10 n
  ⟨(digits.reverse.dropWhile (· = '0')).reverse, k + digits.length - 1⟩

/-- The shortest decimal of a positive finite number. Seventeen digits are always enough. -/
def shortest (pattern : Nat) : Figures :=
  let top := floorLogTen (numerator pattern) (denominator pattern)
  let found := (List.range 17).findSome? fun (n : Nat) =>
    (onGrid pattern (top - n)).map fun multiple => ofMultiple multiple (top - n)
  found.getD ⟨[], 0⟩

end Polypath.Decimal
