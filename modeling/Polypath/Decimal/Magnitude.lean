import Polypath.Coord

/-!
# Magnitudes

The nonnegative binary64 numbers, given by their bit pattern without the sign bit. A pattern stands for a ratio of
naturals, and `nearest` is the pattern of the number closest to a given ratio, a tie going to the even pattern and
everything too large to `Coord.infinity`, the first pattern that is not finite. Products and quotients are rounded once.
-/

namespace Polypath.Decimal

/-- The number of patterns that share an exponent, `2 ^ 52`. -/
abbrev binade : Nat := 0x10000000000000

/-- A finite pattern's value is `significand * 2 ^ exponent`. -/
def significand (pattern : Nat) : Nat :=
  if pattern < binade then pattern else binade + pattern % binade

/-- A finite pattern's value is `significand * 2 ^ exponent`. -/
def exponent (pattern : Nat) : Int :=
  if pattern < binade then -1074 else (pattern / binade : Nat) - 1075

/-- The numerator of a finite pattern's value. -/
def numerator (pattern : Nat) : Nat := significand pattern * Nat.pow 2 (exponent pattern).toNat

/-- The denominator of a finite pattern's value. -/
def denominator (pattern : Nat) : Nat := Nat.pow 2 (-exponent pattern).toNat

/-- The integer nearest to a ratio, a tie going to the even one. -/
def roundDiv (num den : Nat) : Nat :=
  let rest := 2 * (num % den)
  if rest < den ∨ (rest = den ∧ num / den % 2 = 0) then num / den else num / den + 1

/-- The exponent of the largest power of two that is no larger than a positive ratio. -/
def floorLogTwo (num den : Nat) : Int :=
  let k : Int := (num.log2 : Int) - den.log2
  if den * Nat.pow 2 k.toNat ≤ num * Nat.pow 2 (-k).toNat then k else k - 1

/-- The pattern of the number nearest to a ratio. -/
def nearest (num den : Nat) : Nat :=
  if num = 0 then 0
  else
    let q := max (floorLogTwo num den - 52) (-1074)
    let m := roundDiv (num * Nat.pow 2 (-q).toNat) (den * Nat.pow 2 q.toNat)
    min Coord.infinity ((q + 1074).toNat * binade + m)

/-- The rounded product of two finite patterns. -/
def product (a b : Nat) : Nat := nearest (numerator a * numerator b) (denominator a * denominator b)

/-- The rounded quotient of two finite patterns. -/
def quotient (a b : Nat) : Nat := nearest (numerator a * denominator b) (denominator a * numerator b)

/-- The pattern nearest to a power of ten. -/
def powerOfTen (n : Nat) : Nat := nearest (Nat.pow 10 n) 1

end Polypath.Decimal
