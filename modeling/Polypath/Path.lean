import Polypath.Coord

/-!
# Paths

A path is a number and two coordinate sequences, one for each axis, whose lengths need not agree.
-/

namespace Polypath

/-- The two axes of the plane. -/
inductive Axis where
  | x
  | y
deriving DecidableEq, Repr

namespace Axis

/-- The axes in the order in which sequences are written. -/
def all : List Axis := [.x, .y]

/-- The axis as it is printed. -/
def name : Axis → String
  | .x => "x"
  | .y => "y"

end Axis

/-- A numbered pair of coordinate sequences. Equality is bit for bit. -/
structure Path where
  id : UInt32
  x : List Coord
  y : List Coord
deriving DecidableEq, Repr

namespace Path

/-- The path with a number and no coordinates. -/
def empty (id : UInt32) : Path := ⟨id, [], []⟩

/-- The sequence along one axis. -/
def coords (p : Path) : Axis → List Coord
  | .x => p.x
  | .y => p.y

/-- The path with one sequence exchanged. -/
def replace (p : Path) (axis : Axis) (values : List Coord) : Path :=
  match axis with
  | .x => { p with x := values }
  | .y => { p with y := values }

/-- Equality as numbers: same id, and sequences that agree position by position. -/
def agrees (p q : Path) : Bool :=
  p.id == q.id && Coord.agreeAll p.x q.x && Coord.agreeAll p.y q.y

/-- Equality bit for bit: same id, and sequences with the same bits. A NaN is the same as itself, and the two zeros
differ. -/
def bitwiseEq (p q : Path) : Bool :=
  p.id == q.id && Coord.sameBits p.x q.x && Coord.sameBits p.y q.y

theorem bitwiseEq_iff {p q : Path} : p.bitwiseEq q = true ↔ p = q := by
  obtain ⟨id, xs, ys⟩ := p
  obtain ⟨id', xs', ys'⟩ := q
  simp only [bitwiseEq, Bool.and_eq_true, beq_iff_eq, Coord.sameBits_iff, Path.mk.injEq, and_assoc]

@[simp]
theorem coords_replace_self (p : Path) (axis : Axis) (values : List Coord) :
    (p.replace axis values).coords axis = values := by
  cases axis <;> rfl

@[simp]
theorem id_replace (p : Path) (axis : Axis) (values : List Coord) : (p.replace axis values).id = p.id := by
  cases axis <;> rfl

end Path

end Polypath
