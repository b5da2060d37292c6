import Polypath.Path

/-!
# What can be wrong with a buffer

`Fault` names the reasons for which a path is not written or a buffer not read, and `Fault.message` words them.
-/

namespace Polypath.Wire

/-- The parts of a buffer, in the order in which they stand. -/
inductive Field where
  | version
  | id
  | count (axis : Axis)
  | values (axis : Axis)
deriving DecidableEq, Repr

namespace Field

/-- The part as it is printed. -/
def name : Field → String
  | .version => "version"
  | .id => "id"
  | .count axis => axis.name ++ "_count"
  | .values axis => axis.name ++ "_values"

end Field

/-- Why a buffer is refused, or why a path is not written as one. -/
inductive Fault where
  /-- The caller's idea of the length is not the buffer's length. -/
  | lengthMismatch (reported actual : Nat)
  /-- Fewer bytes are left than the field takes. -/
  | truncated (field : Field) (needed available : Nat)
  /-- The version tag names no known layout. -/
  | unsupportedVersion (tag : UInt32)
  /-- Bytes are left after the last sequence. -/
  | trailingBytes (expected actual : Nat)
  /-- A sequence is longer than the element limit. -/
  | tooManyElements (axis : Axis) (count limit : Nat)
deriving DecidableEq, Repr

namespace Fault

/-- The fault in words. -/
def message : Fault → String
  | .lengthMismatch reported actual => s!"reported length {reported} does not match buffer length {actual}"
  | .truncated field needed available =>
    s!"buffer truncated reading {field.name}: need {needed} more bytes, {available} available"
  | .unsupportedVersion tag => s!"unsupported TSF version {tag}"
  | .trailingBytes expected actual =>
    s!"buffer is {actual} bytes but its declared lengths account for {expected}"
  | .tooManyElements axis count limit =>
    s!"{axis.name} sequence declares {count} elements, limit is {limit}"

end Fault

end Polypath.Wire
