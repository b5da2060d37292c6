import Polypath.Decimal.Shortest

/-!
# Layout of decimals

How the digits of a decimal are set: positionally, with a point and at least one digit on each side of it, or with an
exponent that shows its sign.
-/

namespace Polypath.Decimal

/-- The powers of ten of the first digit for which a decimal is set positionally. -/
structure Layout where
  least : Int
  greatest : Int
deriving DecidableEq, Repr

namespace Layout

/-- Digits and point, no exponent. -/
def positional (d : Figures) : List Char :=
  if 0 ≤ d.exponent then
    let whole := d.exponent.toNat + 1
    let zeros := List.replicate (whole - d.digits.length) '0'
    let fraction := d.digits.drop whole
    d.digits.take whole ++ zeros ++ '.' :: (if fraction.isEmpty then ['0'] else fraction)
  else
    '0' :: '.' :: List.replicate ((-d.exponent).toNat - 1) '0' ++ d.digits

/-- One digit before the point, which is left out if no digit follows it, and an exponent. -/
def scientific (d : Figures) : List Char :=
  let fraction := d.digits.drop 1
  let sign := if d.exponent < 0 then '-' else '+'
  d.digits.take 1 ++ (if fraction.isEmpty then [] else '.' :: fraction) ++ 'e' :: sign
    :: Nat.toDigits 10 d.exponent.natAbs

/-- The text of a decimal. -/
def render (layout : Layout) (d : Figures) : List Char :=
  if layout.least ≤ d.exponent ∧ d.exponent ≤ layout.greatest then positional d else scientific d

/-- The text of a finite number given by sign and pattern. -/
def renderNumber (layout : Layout) (negative : Bool) (pattern : Nat) : List Char :=
  let text := if pattern = 0 then ['0', '.', '0'] else layout.render (shortest pattern)
  if negative then '-' :: text else text

end Layout

end Polypath.Decimal
