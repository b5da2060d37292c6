import Polypath.Json.Record
import Polypath.Path
import Polypath.Wire.Format

/-!
# Documents

The documents of this library: paths, element limits and axes. A document is one value with nothing but space around
it.
-/

namespace Polypath.Json

/-- Reads a text as one value with nothing but space behind it. -/
def readAlone {α : Type} (read : List Char → Except Located (α × List Char)) (text : List Char) : Except Located α :=
  match read text with
  | .error e => .error e
  | .ok (value, r) =>
    if (skipSpace r).isEmpty then .ok value else .error (Fault.past .trailingCharacters 1 (skipSpace r))

/-- Reads a whole text as one value, and says where the text is refused. -/
def readDocument {α : Type} (read : List Char → Except Located (α × List Char)) (text : List Char) :
    Except Refusal α :=
  (readAlone read text).mapError fun e => e.inText text

/-! ## Paths -/

/-- The members of a path that have been read. -/
structure PathDraft where
  id : Option UInt32
  x : Option (List Coord)
  y : Option (List Coord)
deriving DecidableEq, Repr

/-- The member `id`. -/
def idMember : Member PathDraft where
  name := "id"
  isPresent draft := draft.id.isSome
  read draft s :=
    match readWord 32 s with
    | .error e => .error e
    | .ok (n, r) => .ok ({ draft with id := some (UInt32.ofNat n) }, r)
  length_read h := by
    split at h
    · cases h
    · next hw =>
      cases h
      exact length_readWord hw

/-- The member `x`. -/
def xMember : Member PathDraft where
  name := "x"
  isPresent draft := draft.x.isSome
  read draft s :=
    match readCoords s with
    | .error e => .error e
    | .ok (values, r) => .ok ({ draft with x := some values }, r)
  length_read h := by
    split at h
    · cases h
    · next hc =>
      cases h
      exact length_readCoords hc

/-- The member `y`. -/
def yMember : Member PathDraft where
  name := "y"
  isPresent draft := draft.y.isSome
  read draft s :=
    match readCoords s with
    | .error e => .error e
    | .ok (values, r) => .ok ({ draft with y := some values }, r)
  length_read h := by
    split at h
    · cases h
    · next hc =>
      cases h
      exact length_readCoords hc

/-- A path needs its id; a missing sequence is empty. -/
def pathRecord : Record PathDraft Path where
  title := "Path"
  members := [idMember, xMember, yMember]
  start := ⟨none, none, none⟩
  finish draft :=
    match draft.id with
    | some id => .ok ⟨id, draft.x.getD [], draft.y.getD []⟩
    | none => .error "id"

/-- The path of a document. -/
def readPath (text : List Char) : Except Refusal Path := readDocument pathRecord.read text

/-! ## Element limits -/

/-- The member `max_elements`. -/
def limitMember : Member (Option UInt64) where
  name := "max_elements"
  isPresent draft := draft.isSome
  read _ s :=
    match readWord 64 s with
    | .error e => .error e
    | .ok (n, r) => .ok (some (UInt64.ofNat n), r)
  length_read h := by
    split at h
    · cases h
    · next hw =>
      cases h
      exact length_readWord hw

/-- A missing limit is the default one. -/
def limitRecord : Record (Option UInt64) UInt64 where
  title := "DecodeOptions"
  members := [limitMember]
  start := none
  finish draft := .ok (draft.getD Wire.defaultLimit)

/-- The element limit of a document. -/
def readLimit (text : List Char) : Except Refusal UInt64 := readDocument limitRecord.read text

/-! ## Axes -/

/-- Reads the name of an axis from behind its opening quote. -/
def readAxisName (s : List Char) : Except Located (Axis × List Char) :=
  match readString s with
  | .error e => .error e
  | .ok (name, r) =>
    match Axis.all.find? fun axis => axis.name.toList = name with
    | some axis => .ok (axis, r)
    | none => .error (Fault.past (.unknownAxis name) 0 r)

/-- Reads a value that has to be `null`. -/
def readNull (s : List Char) : Except Located (List Char) :=
  match skipSpace s with
  | [] => .error (Fault.past (.eof .value) 0 [])
  | c :: r => if c = 'n' then readIdent ['u', 'l', 'l'] r else .error (mistyped .unit c r)

/-- Reads the end of an object with one member. -/
def readObjectEnd (s : List Char) : Except Located (List Char) :=
  match skipSpace s with
  | [] => .error (Fault.past (.eof .object) 0 [])
  | c :: r => if c = '\x7d' then .ok r else .error (Fault.past .expectedValue 0 (c :: r))

/-- Reads an axis: its name, or an object with its name as the only key and `null` as the value. -/
def readAxisValue (s : List Char) : Except Located (Axis × List Char) :=
  match skipSpace s with
  | [] => .error (Fault.past (.eof .value) 0 [])
  | c :: r =>
    if c = '"' then readAxisName r
    else if c = '\x7b' then
      match nextKey true r with
      | .error e => .error e
      | .ok (.close rest) => .error (Fault.past .expectedValue 0 rest)
      | .ok (.item t) => do
        let (axis, rest) ← readAxisName t
        let rest ← readColon rest
        let rest ← readNull rest
        let rest ← readObjectEnd rest
        return (axis, rest)
    else .error (Fault.past .expectedValue 1 (c :: r))

/-- The axis of a document. -/
def readAxis (text : List Char) : Except Refusal Axis := readDocument readAxisValue text

end Polypath.Json
