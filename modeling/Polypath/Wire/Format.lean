import Polypath.Wire.Fault
import Polypath.Wire.Word

/-!
# The binary form of a path

A buffer holds a version tag, the path's id, and for each axis the number of coordinates and then the coordinates:

```text
offset               field      bytes
0                    version    4
4                    id         4
8                    x_count    8
16                   x_values   8 * x_count
16 + 8 * x_count     y_count    8
24 + 8 * x_count     y_values   8 * y_count
```

All fields are little-endian and nothing stands between or after them. A `Format` adds an element limit, which holds
for writing and for reading alike. `Format.decode` reads from the front and answers the first fault it meets. It knows
revision one only, as does `readHeader`; `Format.decodeReported` and `peekHeader` stand in front of them, look at the
version tag and choose who reads.
-/

namespace Polypath.Wire

/-- The revisions of the layout. -/
inductive Revision where
  | one
deriving DecidableEq, Repr

namespace Revision

/-- The tag at the front of a buffer of this revision. -/
def tag : Revision → UInt32
  | .one => 1

/-- The known revisions, oldest first. -/
def all : List Revision := [.one]

/-- The revision that a tag names. -/
def ofTag? (tag : UInt32) : Option Revision :=
  all.find? fun r => r.tag == tag

end Revision

/-- The width of the version tag. -/
def versionWidth : Nat := 4

/-- The width of the id. -/
def idWidth : Nat := 4

/-- The width of a sequence's count. -/
def countWidth : Nat := 8

/-- The width of one coordinate. -/
def coordWidth : Nat := 8

/-- The bytes before the x values. -/
def headerLength : Nat := versionWidth + idWidth + countWidth

/-- The length of a buffer with two empty sequences. -/
def minLength : Nat := headerLength + countWidth

/-- The length of a buffer with the given sequence lengths. -/
def bufferLength (xCount yCount : Nat) : Nat := minLength + coordWidth * (xCount + yCount)

/-! ## Writing -/

/-- The bytes of a sequence's coordinates. -/
def coordBytes (values : List Coord) : List UInt8 :=
  values.flatMap fun c => Word.toBytes coordWidth c.bits.toNat

/-- A sequence with its count in front. -/
def sequenceBytes (values : List Coord) : List UInt8 :=
  Word.toBytes countWidth values.length ++ coordBytes values

/-- The buffer of a path, without regard to any limit. -/
def pathBytes (revision : Revision) (p : Path) : List UInt8 :=
  Word.toBytes versionWidth revision.tag.toNat ++ Word.toBytes idWidth p.id.toNat ++ sequenceBytes p.x
    ++ sequenceBytes p.y

/-- Refuses a sequence length above the limit. -/
def checkLimit (limit : UInt64) (axis : Axis) (count : Nat) : Except Fault Unit :=
  if count ≤ limit.toNat then .ok () else .error (.tooManyElements axis count limit.toNat)

/-! ## Reading -/

/-- Splits a field of `width` bytes off the front. -/
def takeField (field : Field) (width : Nat) (bytes : List UInt8) : Except Fault (List UInt8 × List UInt8) :=
  if width ≤ bytes.length then .ok (bytes.take width, bytes.drop width)
  else .error (.truncated field (min width (UInt64.size - 1)) bytes.length)

/-- The `count` coordinates at the front. -/
def readCoords : (count : Nat) → List UInt8 → List Coord
  | 0, _ => []
  | count + 1, bytes =>
    ⟨UInt64.ofNat (Word.ofBytes (bytes.take coordWidth))⟩ :: readCoords count (bytes.drop coordWidth)

/-- Reads a number field of `width` bytes. -/
def takeWord (field : Field) (width : Nat) (bytes : List UInt8) : Except Fault (Nat × List UInt8) := do
  let (word, rest) ← takeField field width bytes
  return (Word.ofBytes word, rest)

/-- Reads a sequence: its count, which must respect the limit, and as many coordinates. -/
def takeSequence (limit : UInt64) (axis : Axis) (bytes : List UInt8) :
    Except Fault (List Coord × List UInt8) := do
  let (count, rest) ← takeWord (.count axis) countWidth bytes
  checkLimit limit axis count
  let (values, rest) ← takeField (.values axis) (coordWidth * count) rest
  return (readCoords count values, rest)

/-- The version tag at the front of a buffer. -/
def readVersion (bytes : List UInt8) : Except Fault UInt32 := do
  let (tag, _) ← takeWord .version versionWidth bytes
  return UInt32.ofNat tag

/-- The revision of a buffer, which must be a known one. -/
def readRevision (bytes : List UInt8) : Except Fault Revision := do
  let tag ← readVersion bytes
  match Revision.ofTag? tag with
  | some revision => return revision
  | none => throw (.unsupportedVersion tag)

/-- Refuses a buffer whose length is reported wrong. -/
def checkReported (reported : Option Nat) (bytes : List UInt8) : Except Fault Unit :=
  match reported with
  | none => .ok ()
  | some n => if n = bytes.length then .ok () else .error (.lengthMismatch n bytes.length)

/-- Reads the version tag, which must name a known revision, and the id. -/
def takeIdentity (bytes : List UInt8) : Except Fault (Revision × UInt32 × List UInt8) := do
  let (tag, rest) ← takeWord .version versionWidth bytes
  match Revision.ofTag? (UInt32.ofNat tag) with
  | none => throw (.unsupportedVersion (UInt32.ofNat tag))
  | some revision =>
    let (id, rest) ← takeWord .id idWidth rest
    return (revision, UInt32.ofNat id, rest)

/-- The fixed fields at the front of a buffer. -/
structure Header where
  revision : Revision
  id : UInt32
  xCount : Nat
deriving DecidableEq, Repr

namespace Header

/-- The header as it is printed. -/
def text (h : Header) : String := s!"TSF v{h.revision.tag} id={h.id} x_count={h.xCount}"

end Header

/-- Reads the fixed fields and looks at nothing behind them. -/
def readHeader (bytes : List UInt8) : Except Fault Header := do
  let (revision, id, rest) ← takeIdentity bytes
  let (xCount, _) ← takeWord (.count .x) countWidth rest
  return ⟨revision, id, xCount⟩

/-- The fixed fields of a buffer of a revision. -/
def readHeaderAs : Revision → List UInt8 → Except Fault Header
  | .one => readHeader

/-- The fixed fields of a buffer of any known revision. -/
def peekHeader (bytes : List UInt8) : Except Fault Header := do
  let revision ← readRevision bytes
  readHeaderAs revision bytes

/-! ## Formats -/

/-- The element limit that holds when none is chosen. -/
def defaultLimit : UInt64 := 268435456

/-- How paths are written and read: the longest sequence allowed, and the revision that is written. Every known
revision is read. -/
structure Format where
  limit : UInt64 := defaultLimit
  revision : Revision := .one
deriving DecidableEq, Repr

namespace Format

/-- The same format, writing the revision that a tag names. -/
def writing (f : Format) (tag : UInt32) : Except Fault Format :=
  match Revision.ofTag? tag with
  | some revision => .ok { f with revision }
  | none => .error (.unsupportedVersion tag)

/-- The buffer of a path whose sequences respect the limit. -/
def encode (f : Format) (p : Path) : Except Fault (List UInt8) := do
  checkLimit f.limit .x p.x.length
  checkLimit f.limit .y p.y.length
  return pathBytes f.revision p

/-- The path of a buffer that is taken as it stands. -/
def decode (f : Format) (bytes : List UInt8) : Except Fault Path := do
  let (_, id, rest) ← takeIdentity bytes
  let (x, rest) ← takeSequence f.limit .x rest
  let (y, rest) ← takeSequence f.limit .y rest
  if rest.isEmpty then return ⟨id, x, y⟩
  else throw (.trailingBytes (bytes.length - rest.length) bytes.length)

/-- The path of a buffer of a revision. -/
def decodeAs (f : Format) : Revision → List UInt8 → Except Fault Path
  | .one => f.decode

/-- The path of a buffer whose length the caller may report. A wrong report is refused before anything is read. -/
def decodeReported (f : Format) (reported : Option Nat) (bytes : List UInt8) : Except Fault Path := do
  checkReported reported bytes
  let revision ← readRevision bytes
  f.decodeAs revision bytes

end Format

end Polypath.Wire
