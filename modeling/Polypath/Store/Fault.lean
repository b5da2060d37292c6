import Polypath.Path
import Polypath.Store.Handle

/-!
# What can be wrong with a request to a store
-/

namespace Polypath.Store

/-- Why a store refuses a request. -/
inductive Fault where
  /-- No live path has this handle. -/
  | invalidHandle (handle : Handle)
  /-- The declared number of values is not the number that came. -/
  | lengthMismatch (axis : Axis) (declared actual : Nat)
  /-- The position is past the end of the sequence. -/
  | indexOutOfBounds (axis : Axis) (index length : Nat)
  /-- All slot indices are in use or retired. -/
  | exhausted
deriving DecidableEq, Repr

namespace Fault

/-- The fault in words. -/
def message : Fault → String
  | .invalidHandle handle => s!"invalid or destroyed path handle {handle.text}"
  | .lengthMismatch axis declared actual =>
    s!"{axis.name} sequence declared {declared} elements but {actual} were supplied"
  | .indexOutOfBounds axis index length =>
    s!"{axis.name} index {index} out of bounds for sequence of length {length}"
  | .exhausted => "path arena exhausted its handle space"

/-- Whether the handle is to blame. -/
def isInvalidHandle : Fault → Bool
  | .invalidHandle _ => true
  | _ => false

end Fault

end Polypath.Store
