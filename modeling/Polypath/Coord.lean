/-!
# Coordinates

A coordinate is a binary64 number kept as its 64 bits, so that the payload of a NaN and the sign of a zero are never
lost. Equality of coordinates is equality of bits, which sequences are tested for by `Coord.sameBits`; `Coord.agrees` is
equality of the numbers, under which a NaN agrees with nothing and the two zeros agree.
-/

namespace Polypath

/-- A coordinate, kept as the bit pattern of a binary64 number. -/
structure Coord where
  bits : UInt64
deriving DecidableEq, Repr, Inhabited

namespace Coord

/-- The sign bit alone, `2 ^ 63`. -/
abbrev signBit : Nat := 0x8000000000000000

/-- The eleven exponent bits alone, which is the pattern of infinity. -/
abbrev infinity : Nat := 0x7ff0000000000000

/-- The pattern without its sign bit. -/
def magnitude (c : Coord) : Nat :=
  c.bits.toNat % signBit

/-- Whether the sign bit is set. -/
def isNegative (c : Coord) : Bool :=
  decide (signBit ≤ c.bits.toNat)

/-- Neither infinite nor a NaN: the eleven exponent bits are not all set. -/
def isFinite (c : Coord) : Bool :=
  decide (c.magnitude < infinity)

/-- All exponent bits are set and the fraction is not zero. -/
def isNaN (c : Coord) : Bool :=
  decide (infinity < c.magnitude)

/-- Equality as numbers. -/
def agrees (a b : Coord) : Bool :=
  !a.isNaN && !b.isNaN && (decide (a = b) || (decide (a.magnitude = 0) && decide (b.magnitude = 0)))

/-- The coordinate with the given sign and the given pattern below it. -/
def ofParts (negative : Bool) (magnitude : Nat) : Coord :=
  ⟨UInt64.ofNat (if negative then signBit + magnitude else magnitude)⟩

/-- Sequences agree when they have the same length and agree position by position. -/
def agreeAll : List Coord → List Coord → Bool
  | [], [] => true
  | a :: as, b :: bs => a.agrees b && agreeAll as bs
  | _, _ => false

/-- Sequences have the same bits when they have the same length and the same pattern at each position. -/
def sameBits (as bs : List Coord) : Bool :=
  as.length == bs.length && (as.zip bs).all fun pair => pair.1.bits == pair.2.bits

theorem sameBits_iff {as bs : List Coord} : sameBits as bs = true ↔ as = bs := by
  unfold sameBits
  induction as generalizing bs with
  | nil => cases bs <;> simp
  | cons a as ih =>
    cases bs with
    | nil => simp
    | cons b bs =>
      obtain ⟨a⟩ := a
      obtain ⟨b⟩ := b
      simp only [Bool.and_eq_true, beq_iff_eq] at ih
      simp only [List.length_cons, List.zip_cons_cons, List.all_cons, Bool.and_eq_true, beq_iff_eq,
        Nat.add_right_cancel_iff, List.cons.injEq, Coord.mk.injEq, ← ih]
      exact and_left_comm

end Coord

end Polypath
