import Polypath.Json.Skip

/-!
# Values of a known shape

Words, coordinates, lists of coordinates, and records. A record is written as an object, whose members may come in any
order and among others that are skipped, or as a list of its members in their own order.
-/

namespace Polypath.Json

/-- The fault of a value that starts with `c` and is not what is wanted. The value is read first, so that its own
faults come before this one, unless it has parts; the fault shows behind what is read. -/
def mistyped (wanted : Wanted) (c : Char) (r : List Char) : Located :=
  let known (found : Found) (read : Except Located (List Char)) : Located :=
    match read with
    | .ok rest => Fault.past (.wrongType found wanted) 0 rest
    | .error e => e
  if c = 'n' then known .null (readIdent ['u', 'l', 'l'] r)
  else if c = 't' then known (.boolean true) (readIdent ['r', 'u', 'e'] r)
  else if c = 'f' then known (.boolean false) (readIdent ['a', 'l', 's', 'e'] r)
  else if startsNumber c then
    match readNumber (c :: r) with
    | .ok (n, rest) => Fault.past (.wrongType (.number n) wanted) 0 rest
    | .error e => e
  else if c = '"' then
    match readString r with
    | .ok (text, rest) => Fault.past (.wrongType (.string text) wanted) 0 rest
    | .error e => e
  else if c = '[' then Fault.past (.wrongType .sequence wanted) 0 (c :: r)
  else if c = '\x7b' then Fault.past (.wrongType .map wanted) 0 (c :: r)
  else Fault.past .expectedValue 1 (c :: r)

/-! ## Numbers -/

/-- Reads a number where one is wanted. -/
def wantNumber (wanted : Wanted) (s : List Char) : Except Located (Decimal.Number × List Char) :=
  match skipSpace s with
  | [] => .error (Fault.past (.eof .value) 0 [])
  | c :: r => if startsNumber c then readNumber (c :: r) else .error (mistyped wanted c r)

theorem length_wantNumber {wanted : Wanted} {s r : List Char} {n : Decimal.Number}
    (h : wantNumber wanted s = .ok (n, r)) : r.length < s.length := by
  have hs := length_skipSpace s
  unfold wantNumber at h
  split at h
  · cases h
  · next hc =>
    rw [hc] at hs
    split at h
    · have := length_readNumber h
      omega
    · cases h

/-- Reads an unsigned integer of at most `bits` bits. -/
def readWord (bits : Nat) (s : List Char) : Except Located (Nat × List Char) :=
  match wantNumber (.word bits) s with
  | .error e => .error e
  | .ok (.natural n, r) =>
    if n < Nat.pow 2 bits then .ok (n, r) else .error (Fault.past (.wrongInteger (.natural n) (.word bits)) 0 r)
  | .ok (.negative n, r) => .error (Fault.past (.wrongInteger (.negative n) (.word bits)) 0 r)
  | .ok (.real c, r) => .error (Fault.past (.wrongType (.number (.real c)) (.word bits)) 0 r)

theorem length_readWord {bits n : Nat} {s r : List Char} (h : readWord bits s = .ok (n, r)) :
    r.length < s.length := by
  unfold readWord at h
  split at h
  · cases h
  · next hn =>
    split at h
    · cases h
      exact length_wantNumber hn
    · cases h
  · cases h
  · cases h

/-- Reads a coordinate. -/
def readCoord (s : List Char) : Except Located (Coord × List Char) :=
  match wantNumber .real s with
  | .error e => .error e
  | .ok (n, r) => .ok (n.toCoord, r)

theorem length_readCoord {s r : List Char} {c : Coord} (h : readCoord s = .ok (c, r)) : r.length < s.length := by
  unfold readCoord at h
  split at h
  · cases h
  · next hn =>
    cases h
    exact length_wantNumber hn

/-! ## Lists of coordinates -/

/-- Reads the coordinates of a list from behind its opening bracket, after those in `before`, the last of them
first. -/
def readCoordsAfter (before : List Coord) (s : List Char) : Except Located (List Coord × List Char) :=
  match _hn : nextElement before.isEmpty s with
  | .error e => .error e
  | .ok (.close r) => .ok (before.reverse, r)
  | .ok (.item r) =>
    match _hc : readCoord r with
    | .error e => .error e
    | .ok (c, rest) => readCoordsAfter (c :: before) rest
termination_by s.length
decreasing_by
  have h1 := length_nextElement_item _hn
  have h2 := length_readCoord _hc
  omega

theorem length_readCoordsAfter {before cs : List Coord} {s r : List Char}
    (h : readCoordsAfter before s = .ok (cs, r)) : r.length < s.length := by
  fun_induction readCoordsAfter before s with
  | case1 => cases h
  | case2 before s rest hn =>
    cases h
    exact length_nextElement_close hn
  | case3 => cases h
  | case4 before s item hn c rest hc ih =>
    have h1 := length_nextElement_item hn
    have h2 := length_readCoord hc
    have h3 := ih h
    omega

/-- Reads a list of coordinates. -/
def readCoords (s : List Char) : Except Located (List Coord × List Char) :=
  match skipSpace s with
  | [] => .error (Fault.past (.eof .value) 0 [])
  | c :: r => if c = '[' then readCoordsAfter [] r else .error (mistyped .sequence c r)

theorem length_readCoords {cs : List Coord} {s r : List Char} (h : readCoords s = .ok (cs, r)) :
    r.length < s.length := by
  have hs := length_skipSpace s
  unfold readCoords at h
  split at h
  · cases h
  · next hc =>
    rw [hc, List.length_cons] at hs
    split at h
    · have := length_readCoordsAfter h
      omega
    · cases h

/-! ## Records -/

/-- A member of a record that is gathered in a draft of type `σ`. -/
structure Member (σ : Type) where
  name : String
  isPresent : σ → Bool
  read : σ → List Char → Except Located (σ × List Char)
  length_read : ∀ {draft draft' : σ} {s r : List Char}, read draft s = .ok (draft', r) → r.length < s.length

/-- A record of type `α`: what it is called, its members, the draft without any, and how a draft is made into a
record, unless a member is missing. -/
structure Record (σ α : Type) where
  title : String
  members : List (Member σ)
  start : σ
  finish : σ → Except String α

namespace Record

variable {σ α : Type}

/-- The fault of a key that is there twice. It shows at the next character that is no space, or behind it if that closes
the object. -/
def duplicate (name : String) (r : List Char) : Located :=
  Fault.past (.duplicateField name) (if (skipSpace r).head? = some '\x7d' then 1 else 0) (skipSpace r)

/-- Reads a member from behind the opening quote of its key. -/
def readMember (record : Record σ α) (draft : σ) (s : List Char) : Except Located (σ × List Char) :=
  match readString s with
  | .error e => .error e
  | .ok (key, r) =>
    match record.members.find? fun m => m.name.toList = key with
    | none =>
      match readColon r with
      | .error e => .error e
      | .ok r =>
        match skipValue r with
        | .error e => .error e
        | .ok r => .ok (draft, r)
    | some m =>
      if m.isPresent draft then .error (duplicate m.name r)
      else
        match readColon r with
        | .error e => .error e
        | .ok r => m.read draft r

theorem length_readMember {record : Record σ α} {draft draft' : σ} {s r : List Char}
    (h : record.readMember draft s = .ok (draft', r)) : r.length < s.length := by
  unfold readMember at h
  split at h
  · cases h
  · next hk =>
    have h1 := length_readString hk
    split at h
    · split at h
      · cases h
      · next hc =>
        have h2 := length_readColon hc
        split at h
        · cases h
        · next hv =>
          have h3 := length_skipValue hv
          cases h
          omega
    · split at h
      · cases h
      · split at h
        · cases h
        · next m _ _ _ _ hc =>
          have h2 := length_readColon hc
          have h3 := m.length_read h
          omega

/-- Reads the members of an object from behind its opening bracket or behind a member. -/
def readMembers (record : Record σ α) (first : Bool) (draft : σ) (s : List Char) :
    Except Located (σ × List Char) :=
  match _hn : nextKey first s with
  | .error e => .error e
  | .ok (.close r) => .ok (draft, r)
  | .ok (.item r) =>
    match _hm : record.readMember draft r with
    | .error e => .error e
    | .ok (draft, rest) => record.readMembers false draft rest
termination_by s.length
decreasing_by
  have h1 := length_nextKey_item _hn
  have h2 := length_readMember _hm
  omega

/-- Reads the end of a list that has all members of a record. -/
def readListEnd (s : List Char) : Except Located (List Char) :=
  match skipSpace s with
  | [] => .error (Fault.past (.eof .list) 0 [])
  | c :: r =>
    if c = ']' then .ok r
    else if c = ',' then
      .error (Fault.past (if (skipSpace r).head? = some ']' then .trailingComma else .trailingCharacters) 1 (skipSpace r))
    else .error (Fault.past .trailingCharacters 1 (c :: r))

/-- Reads members as the elements of a list, `count` of them being read already. -/
def readElements (count : Nat) (draft : σ) : List (Member σ) → List Char → Except Located (σ × Nat × List Char)
  | [], s =>
    match readListEnd s with
    | .error e => .error e
    | .ok r => .ok (draft, count, r)
  | m :: members, s =>
    match nextElement (count = 0) s with
    | .error e => .error e
    | .ok (.close r) => .ok (draft, count, r)
    | .ok (.item r) =>
      match m.read draft r with
      | .error e => .error e
      | .ok (draft, rest) => readElements (count + 1) draft members rest

/-- Reads a record. -/
def read (record : Record σ α) (s : List Char) : Except Located (α × List Char) :=
  match skipSpace s with
  | [] => .error (Fault.past (.eof .value) 0 [])
  | c :: r =>
    if c = '\x7b' then
      match record.readMembers true record.start r with
      | .error e => .error e
      | .ok (draft, r) =>
        match record.finish draft with
        | .ok value => .ok (value, r)
        | .error name => .error (Fault.past (.missingField name) 0 r)
    else if c = '[' then
      match readElements 0 record.start record.members r with
      | .error e => .error e
      | .ok (draft, count, r) =>
        match record.finish draft with
        | .ok value => .ok (value, r)
        | .error _ => .error (Fault.past (.tooShort count record.title record.members.length) 0 r)
    else .error (mistyped (.record record.title) c r)

end Record

end Polypath.Json
