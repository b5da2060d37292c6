import Polypath.Files.Tree
import Polypath.Store.Fault
import Polypath.Text.Base64Url
import Polypath.Wire.Fault

/-!
# What can go wrong when a path is moved

Paths are moved between a store, buffers, files and base64url text, and each of these has faults of its own.
-/

namespace Polypath.Transfer

/-- Why a path does not arrive. -/
inductive Fault where
  | buffer (fault : Wire.Fault)
  | store (fault : Store.Fault)
  | file (fault : Files.Fault)
  | text (fault : Text.Base64Url.Fault)
deriving DecidableEq, Repr

namespace Fault

/-- The fault in words. -/
def message : Fault → String
  | .buffer fault => fault.message
  | .store fault => "store error: " ++ fault.message
  | .file fault => "I/O error: " ++ fault.message
  | .text fault => "base64 error: " ++ fault.message

/-- Whether the buffer itself is to blame. -/
def isMalformed : Fault → Bool
  | .buffer _ => true
  | _ => false

end Fault

end Polypath.Transfer
