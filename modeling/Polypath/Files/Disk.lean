import Polypath.Files.Tree

/-!
# Disks

A disk is a way to touch files, one action at a time: reading a whole file, or making a file hold a content. What is
done to a disk stays done, whatever becomes of the program that did it. The files of a tree are a disk (`ofTree`).
-/

namespace Polypath.Files

/-- The actions on files. -/
structure Disk (m : Type → Type) where
  read : (name : String) → m (Except Fault (List UInt8))
  write : (name : String) → (content : List UInt8) → m (Except Fault Unit)

namespace Disk

/-- The files of a tree. A write that fails leaves the tree as it is. -/
def ofTree : Disk (StateM Tree) where
  read name := do return (← get).read name
  write name content := do
    match (← get).write name content with
    | .ok after =>
      set after
      return .ok ()
    | .error fault => return .error fault

end Disk

end Polypath.Files
