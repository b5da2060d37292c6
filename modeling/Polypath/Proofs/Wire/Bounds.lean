import Polypath.Proofs.Wire.Readers

/-!
# Reading stays within bounds

`Format.decode` and `readHeader` reckon with numbers of any size and cannot ask a buffer for more than it has. A machine
reckons with 64-bit words, whose products may be too large, and with addresses that may be shorter still. It breaks down
when it reads a word of which not all bytes are left, when it sets aside more memory than it can address, and when a
difference falls below zero. `Machine.fetchPath` and `Machine.fetchHeader` read a buffer on such a machine, word by
word, and note what they do to the buffer and to memory (`Act`).

A meter follows these notes: how many bytes are left, and how much of the memory set aside is still empty (`Within`).
Every reader gives the answer that is wanted and keeps to the meter (`Follows`), and readers one after the other do so
(`Follows.bind`). In the loop over the coordinates the meter shows eight bytes for each one still to come
(`Machine.fetchCoords_spec`). So the machine answers what `decode` and `readHeader` answer and never breaks down,
whatever count stands in the buffer and whatever the limit (`reading_stays_in_bounds`).
-/

namespace Polypath.Wire

open Outcome

/-! ## Runs -/

/-- What a run does to its buffer and to memory. -/
inductive Act where
  /-- A word of `width` bytes is read while `available` bytes are left. -/
  | read (width available : Nat)
  /-- Memory for `capacity` coordinates is set aside, for a sequence that is said to have `count`. -/
  | reserve (axis : Axis) (count : UInt64) (capacity : Nat)
  /-- A coordinate is put into the memory that was set aside last. -/
  | push
  /-- One number is taken away from another. -/
  | subtract (whole part : Nat)
deriving DecidableEq, Repr

/-- Why a run ends without a result: the buffer is refused, or the machine breaks down. -/
inductive Stop where
  | refused (fault : Fault)
  | broken
deriving DecidableEq, Repr

/-- The outcome of a run, and what was done up to there. -/
structure Run (α : Type) where
  outcome : Except Stop α
  acts : List Act

namespace Run

variable {α β : Type}

instance : Monad Run where
  pure a := ⟨.ok a, []⟩
  bind first next :=
    match first.outcome with
    | .ok a => ⟨(next a).outcome, first.acts ++ (next a).acts⟩
    | .error stop => ⟨.error stop, first.acts⟩

/-- Does one thing. -/
def perform (act : Act) : Run Unit := ⟨.ok (), [act]⟩

/-- Refuses the buffer. -/
def refuse (fault : Fault) : Run α := ⟨.error (.refused fault), []⟩

/-- Breaks down. -/
def breakDown : Run α := ⟨.error .broken, []⟩

theorem bind_of_ok {first : Run α} {a : α} (h : first.outcome = .ok a) (next : α → Run β) :
    first >>= next = ⟨(next a).outcome, first.acts ++ (next a).acts⟩ := by
  simp only [bind, h]

theorem bind_of_error {first : Run α} {stop : Stop} (h : first.outcome = .error stop) (next : α → Run β) :
    first >>= next = ⟨.error stop, first.acts⟩ := by
  simp only [bind, h]

@[simp]
theorem pure_bind (a : α) (next : α → Run β) : (pure a : Run α) >>= next = next a := rfl

@[simp]
theorem perform_bind (act : Act) (next : Unit → Run β) :
    perform act >>= next = ⟨(next ()).outcome, act :: (next ()).acts⟩ := rfl

@[simp]
theorem refuse_bind (fault : Fault) (next : α → Run β) : refuse fault >>= next = refuse fault := rfl

end Run

/-! ## The machine -/

/-- A machine with 64-bit words, and with addresses that are not longer than a word. -/
structure Machine where
  addressBits : Nat
  addressBits_le : addressBits ≤ 64

namespace Machine

/-- Half the number of addresses. No buffer and no memory has as many bytes. -/
def reach (m : Machine) : Nat := 2 ^ (m.addressBits - 1)

/-- A word cut down to an address. -/
def toAddress (m : Machine) (word : UInt64) : Nat := word.toNat % 2 ^ m.addressBits

/-- Refuses a field of which not all bytes are left. -/
def require (field : Field) (needed : UInt64) (bytes : List UInt8) : Run Unit :=
  if UInt64.ofNat bytes.length < needed then .refuse (.truncated field needed.toNat bytes.length) else pure ()

/-- Reads a word, unless not all its bytes are left. -/
def readWord (width : Nat) (bytes : List UInt8) : Run (Nat × List UInt8) := do
  Run.perform (.read width bytes.length)
  if bytes.length < width then .breakDown else return (Word.ofBytes (bytes.take width), bytes.drop width)

/-- Reads a number field. -/
def fetchWord (field : Field) (width : Nat) (bytes : List UInt8) : Run (Nat × List UInt8) := do
  require field (UInt64.ofNat width) bytes
  readWord width bytes

/-- Refuses a sequence length above the limit. -/
def checkCount (limit : UInt64) (axis : Axis) (count : UInt64) : Run Unit :=
  if limit < count then .refuse (.tooManyElements axis count.toNat limit.toNat) else pure ()

/-- How many bytes so many coordinates take; the largest word if no word is large enough. -/
def coordSpan (count : UInt64) : UInt64 :=
  if coordWidth * count.toNat < UInt64.size then UInt64.ofNat (coordWidth * count.toNat)
  else UInt64.ofNat (UInt64.size - 1)

/-- Sets memory aside, unless it has too many bytes. -/
def reserve (m : Machine) (axis : Axis) (count : UInt64) : Run Unit := do
  Run.perform (.reserve axis count (m.toAddress count))
  if m.reach ≤ coordWidth * m.toAddress count then .breakDown else return ()

/-- Reads coordinates into memory, one after the other. -/
def fetchCoords : (count : Nat) → List UInt8 → Run (List Coord × List UInt8)
  | 0, bytes => return ([], bytes)
  | count + 1, bytes => do
    let (bits, rest) ← readWord coordWidth bytes
    Run.perform .push
    let (values, rest) ← fetchCoords count rest
    return (⟨UInt64.ofNat bits⟩ :: values, rest)

/-- Reads the coordinates of a sequence: they have to be there, and memory for them is set aside first. -/
def fetchValues (m : Machine) (axis : Axis) (count : UInt64) (bytes : List UInt8) :
    Run (List Coord × List UInt8) := do
  require (.values axis) (coordSpan count) bytes
  m.reserve axis count
  fetchCoords count.toNat bytes

/-- Reads a sequence. -/
def fetchSequence (m : Machine) (limit : UInt64) (axis : Axis) (bytes : List UInt8) :
    Run (List Coord × List UInt8) := do
  let (count, rest) ← fetchWord (.count axis) countWidth bytes
  checkCount limit axis (UInt64.ofNat count)
  m.fetchValues axis (UInt64.ofNat count) rest

/-- Reads the version tag and the id. -/
def fetchIdentity (bytes : List UInt8) : Run (Revision × UInt32 × List UInt8) := do
  let (tag, rest) ← fetchWord .version versionWidth bytes
  match Revision.ofTag? (UInt32.ofNat tag) with
  | none => .refuse (.unsupportedVersion (UInt32.ofNat tag))
  | some revision =>
    let (id, rest) ← fetchWord .id idWidth rest
    return (revision, UInt32.ofNat id, rest)

/-- Reads the header of a buffer. -/
def fetchHeader (bytes : List UInt8) : Run Header := do
  let (revision, id, rest) ← fetchIdentity bytes
  let (xCount, _) ← fetchWord (.count .x) countWidth rest
  return ⟨revision, id, xCount⟩

/-- Takes a number away from another, unless it is larger. -/
def subtract (whole part : Nat) : Run Nat := do
  Run.perform (.subtract whole part)
  if whole < part then .breakDown else return whole - part

/-- Refuses a buffer of which bytes are left, with the number of bytes that were read. -/
def checkEnd (bytes rest : List UInt8) (p : Path) : Run Path :=
  if rest.isEmpty then return p
  else do
    let expected ← subtract bytes.length rest.length
    .refuse (.trailingBytes expected bytes.length)

/-- Reads the path of a buffer. -/
def fetchPath (m : Machine) (f : Format) (bytes : List UInt8) : Run Path := do
  let (_, id, rest) ← fetchIdentity bytes
  let (x, rest) ← m.fetchSequence f.limit .x rest
  let (y, rest) ← m.fetchSequence f.limit .y rest
  checkEnd bytes rest ⟨id, x, y⟩

end Machine

/-! ## The meter -/

/-- The bytes that an act reads. -/
def Act.width : Act → Nat
  | .read width _ => width
  | _ => 0

/-- The bytes that acts read. -/
def consumed (acts : List Act) : Nat := (acts.map Act.width).sum

/-- For which sequences memory is set aside, and for how many coordinates. -/
def reserved (acts : List Act) : List (Axis × Nat) :=
  acts.filterMap fun
    | .reserve axis _ capacity => some (axis, capacity)
    | _ => none

/-- The coordinates that are put into memory before memory is set aside again. -/
def pushed : List Act → Nat
  | [] => 0
  | .push :: acts => pushed acts + 1
  | .reserve _ _ _ :: _ => 0
  | .read _ _ :: acts | .subtract _ _ :: acts => pushed acts

/-- An act may be done while `left` bytes are left and memory for `empty` coordinates is empty: a word is not read past
the end, memory is set aside when all is full, for as many coordinates as the count says and for no more than can be
left, nothing is put into full memory, and what is left is not taken away from less. -/
def Act.Allowed (left empty : Nat) : Act → Prop
  | .read width available => available = left ∧ width ≤ left
  | .reserve _ count capacity => empty = 0 ∧ capacity = count.toNat ∧ coordWidth * capacity ≤ left
  | .push => 0 < empty
  | .subtract whole part => part = left ∧ part ≤ whole

/-- The memory that is empty after an act. -/
def Act.emptyAfter (empty : Nat) : Act → Nat
  | .reserve _ _ capacity => capacity
  | .push => empty - 1
  | .read _ _ | .subtract _ _ => empty

/-- The acts may be done one after the other, and they leave no memory empty. -/
def Within : (left empty : Nat) → List Act → Prop
  | _, empty, [] => empty = 0
  | left, empty, act :: acts => act.Allowed left empty ∧ Within (left - act.width) (act.emptyAfter empty) acts

theorem Act.Allowed.width_le {left empty : Nat} {act : Act} (h : act.Allowed left empty) : act.width ≤ left := by
  cases act with
  | read width available => exact h.2
  | reserve | push | subtract => exact Nat.zero_le _

@[simp]
theorem consumed_nil : consumed [] = 0 := rfl

@[simp]
theorem consumed_cons (act : Act) (acts : List Act) : consumed (act :: acts) = act.width + consumed acts := by
  simp [consumed]

@[simp]
theorem consumed_append (acts more : List Act) : consumed (acts ++ more) = consumed acts + consumed more := by
  simp [consumed]

theorem reserved_cons_reserve (axis : Axis) (count : UInt64) (capacity : Nat) (acts : List Act) :
    reserved (.reserve axis count capacity :: acts) = (axis, capacity) :: reserved acts := rfl

@[simp]
theorem reserved_append (acts more : List Act) : reserved (acts ++ more) = reserved acts ++ reserved more :=
  List.filterMap_append

/-- Runs that set no memory aside, one after the other. -/
theorem reserved_bind {α β : Type} {run : Run α} {next : α → Run β} (h : reserved run.acts = [])
    (hnext : ∀ a, reserved (next a).acts = []) : reserved (run >>= next).acts = [] := by
  cases houtcome : run.outcome with
  | ok a => simp only [Run.bind_of_ok houtcome, reserved_append, h, hnext a, List.append_nil]
  | error stop => simp only [Run.bind_of_error houtcome, h]

namespace Within

variable {left empty : Nat} {acts more before : List Act}

/-- Acts that have filled their memory may be followed by others that keep within what is left. -/
theorem append (h : Within left empty acts) (hmore : Within (left - consumed acts) 0 more) :
    Within left empty (acts ++ more) := by
  induction acts generalizing left empty with
  | nil =>
    have hempty : empty = 0 := h
    subst hempty
    exact hmore
  | cons act acts ih =>
    rw [consumed_cons, ← Nat.sub_sub] at hmore
    exact ⟨h.1, ih h.2 hmore⟩

/-- The acts from some point on keep within what is left there. -/
theorem of_append (h : Within left empty (before ++ acts)) :
    consumed before ≤ left ∧ ∃ empty', Within (left - consumed before) empty' acts := by
  induction before generalizing left empty with
  | nil => exact ⟨Nat.zero_le _, empty, h⟩
  | cons act before ih =>
    obtain ⟨hact, h⟩ := h
    obtain ⟨hle, empty', h⟩ := ih h
    rw [consumed_cons, ← Nat.sub_sub]
    exact ⟨Nat.add_le_of_le_sub' hact.width_le hle, empty', h⟩

theorem consumed_le (h : Within left empty acts) : consumed acts ≤ left := by
  rw [← List.append_nil acts] at h
  exact h.of_append.1

/-- Memory that is empty is filled, and no more is put there. -/
theorem pushed_eq (h : Within left empty acts) : pushed acts = empty := by
  induction acts generalizing left empty with
  | nil => exact Eq.symm h
  | cons act acts ih =>
    obtain ⟨hact, h⟩ := h
    cases act with
    | read width available => exact ih h
    | reserve axis count capacity => exact hact.1.symm
    | push => rw [pushed, ih h, Act.emptyAfter, Nat.sub_add_cancel hact]
    | subtract whole part => exact ih h

end Within

/-- What is meant by staying within bounds, in a run over a buffer of a given length. -/
structure InBounds (length : Nat) (acts : List Act) : Prop where
  /-- A word is read only while all its bytes are left. -/
  reads : ∀ before width available after, acts = before ++ .read width available :: after →
    consumed before + available = length ∧ width ≤ available
  /-- Memory is set aside for as many coordinates as the count says, not for more than the buffer can have, and
  is then filled. -/
  reservations : ∀ before axis count capacity after, acts = before ++ .reserve axis count capacity :: after →
    capacity = count.toNat ∧ capacity ≤ length / 8 ∧ pushed after = capacity
  /-- What is left is taken away only from what is not less. -/
  differences : ∀ before whole part after, acts = before ++ .subtract whole part :: after →
    consumed before + part = length ∧ part ≤ whole

theorem Within.inBounds {length : Nat} {acts : List Act} (h : Within length 0 acts) : InBounds length acts where
  reads before width available after hacts := by
    subst hacts
    obtain ⟨hle, _, ⟨rfl, hwidth⟩, -⟩ := h.of_append
    exact ⟨Nat.add_sub_cancel' hle, hwidth⟩
  reservations before axis count capacity after hacts := by
    subst hacts
    obtain ⟨-, _, ⟨-, hcapacity, hroom⟩, hafter⟩ := h.of_append
    refine ⟨hcapacity, ?_, hafter.pushed_eq⟩
    rw [coordWidth] at hroom
    omega
  differences before whole part after hacts := by
    subst hacts
    obtain ⟨hle, _, ⟨rfl, hpart⟩, -⟩ := h.of_append
    exact ⟨Nat.add_sub_cancel' hle, hpart⟩

/-! ## Runs that keep to the meter -/

/-- A run over `left` bytes gives the answer, keeps to the meter and has filled all its memory. If there is a result, so
many bytes are left as the result tells. -/
structure Follows {α : Type} (left : Nat) (run : Run α) (answer : Except Fault α) (leaves : α → Nat) : Prop where
  outcome_eq : run.outcome = answer.mapError .refused
  within : Within left 0 run.acts
  leaves_eq : ∀ a, answer = .ok a → leaves a = left - consumed run.acts

namespace Follows

variable {α β : Type} {left : Nat}

theorem pure {a : α} {leaves : α → Nat} (h : leaves a = left) : Follows left (pure a) (.ok a) leaves where
  outcome_eq := rfl
  within := rfl
  leaves_eq b hb := by
    cases hb
    exact h

theorem refuse (fault : Fault) (leaves : α → Nat) : Follows left (.refuse fault) (.error fault) leaves where
  outcome_eq := rfl
  within := rfl
  leaves_eq a ha := by cases ha

/-- A run that goes on where another has stopped. -/
theorem bind {run : Run α} {answer : Except Fault α} {leaves : α → Nat} {next : α → Run β}
    {next' : α → Except Fault β} {leaves' : β → Nat} (h : Follows left run answer leaves)
    (hnext : ∀ a, answer = .ok a → Follows (leaves a) (next a) (next' a) leaves') :
    Follows left (run >>= next) (answer >>= next') leaves' := by
  obtain ⟨houtcome, hwithin, hleaves⟩ := h
  cases answer with
  | error fault =>
    rw [Run.bind_of_error houtcome]
    exact ⟨rfl, hwithin, fun b hb => by cases hb⟩
  | ok a =>
    obtain ⟨houtcome', hwithin', hleaves'⟩ := hnext a rfl
    rw [Run.bind_of_ok houtcome]
    rw [hleaves a rfl] at hwithin' hleaves'
    refine ⟨houtcome', hwithin.append hwithin', fun b hb => ?_⟩
    rw [hleaves' b hb, Nat.sub_sub, ← consumed_append]

/-- What a run that goes on has done. -/
theorem acts_bind {run : Run α} {answer : Except Fault α} {leaves : α → Nat} {a : α}
    (h : Follows left run answer leaves) (ha : answer = .ok a) (next : α → Run β) :
    (run >>= next).acts = run.acts ++ (next a).acts := by
  have houtcome : run.outcome = .ok a := by rw [h.outcome_eq, ha, mapError_ok]
  rw [Run.bind_of_ok houtcome]

end Follows

/-! ## What readers leave -/

section Left

variable {bytes rest : List UInt8}

theorem length_of_takeWord {field : Field} {width n : Nat} (h : takeWord field width bytes = .ok (n, rest)) :
    bytes.length = width + rest.length := by
  obtain ⟨-, rfl⟩ := takeWord_eq_ok_iff.mp h
  rw [List.length_append, Word.length_toBytes]

theorem length_of_takeIdentity {revision : Revision} {id : UInt32}
    (h : takeIdentity bytes = .ok (revision, id, rest)) : bytes.length = 8 + rest.length := by
  rw [takeIdentity_eq_ok_iff.mp h]
  simp only [List.length_append, Word.length_toBytes, versionWidth, idWidth]
  omega

theorem length_le_of_takeSequence {limit : UInt64} {axis : Axis} {values : List Coord}
    (h : takeSequence limit axis bytes = .ok (values, rest)) : rest.length ≤ bytes.length := by
  obtain ⟨-, rfl⟩ := takeSequence_eq_ok_iff.mp h
  rw [List.length_append]
  exact Nat.le_add_left _ _

end Left

namespace Machine

/-! ## Words and counts -/

/-- Below the largest word the bytes that are left are counted right. -/
theorem require_eq {bytes : List UInt8} (hb : bytes.length < UInt64.size) (field : Field) (needed : UInt64) :
    require field needed bytes =
      if bytes.length < needed.toNat then .refuse (.truncated field needed.toNat bytes.length) else pure () := by
  simp only [require, UInt64.lt_iff_toNat_lt, UInt64.toNat_ofNat_of_lt' hb]

theorem readWord_of_le {width : Nat} {bytes : List UInt8} (hw : width ≤ bytes.length) :
    readWord width bytes =
      ⟨.ok (Word.ofBytes (bytes.take width), bytes.drop width), [.read width bytes.length]⟩ := by
  simp only [readWord, Run.perform_bind, if_neg (Nat.not_lt.mpr hw)]
  rfl

/-- A number is read only behind the check that all its bytes are left. -/
theorem follows_fetchWord (field : Field) {width : Nat} (hwidth : width < UInt64.size) {bytes : List UInt8}
    (hb : bytes.length < UInt64.size) :
    Follows bytes.length (fetchWord field width bytes) (takeWord field width bytes) fun read => read.2.length := by
  simp only [fetchWord, require_eq hb, UInt64.toNat_ofNat_of_lt' hwidth, takeWord, takeField]
  by_cases hw : width ≤ bytes.length
  · rw [if_neg (Nat.not_lt.mpr hw), if_pos hw, Run.pure_bind, readWord_of_le hw]
    refine ⟨rfl, ⟨⟨rfl, hw⟩, rfl⟩, fun read hread => ?_⟩
    cases hread
    simp [Act.width]
  · rw [if_pos (Nat.lt_of_not_le hw), if_neg hw, Nat.min_eq_left (Nat.le_sub_one_of_lt hwidth), Run.refuse_bind]
    exact .refuse _ _

theorem reserved_fetchWord (field : Field) (width : Nat) (bytes : List UInt8) :
    reserved (fetchWord field width bytes).acts = [] := by
  unfold fetchWord require
  split
  · rfl
  · rw [Run.pure_bind, readWord, Run.perform_bind]
    split
    · rfl
    · rfl

theorem follows_checkCount (left : Nat) (limit : UInt64) (axis : Axis) {count : Nat} (hcount : count < UInt64.size) :
    Follows left (checkCount limit axis (UInt64.ofNat count)) (checkLimit limit axis count) fun _ => left := by
  simp only [checkCount, checkLimit, UInt64.lt_iff_toNat_lt, UInt64.toNat_ofNat_of_lt' hcount]
  by_cases hlimit : count ≤ limit.toNat
  · rw [if_neg (Nat.not_lt.mpr hlimit), if_pos hlimit]
    exact .pure rfl
  · rw [if_pos (Nat.lt_of_not_le hlimit), if_neg hlimit]
    exact .refuse _ _

/-- A product that is too large for a word counts as the largest word. -/
theorem toNat_coordSpan (count : UInt64) :
    (coordSpan count).toNat = min (coordWidth * count.toNat) (UInt64.size - 1) := by
  unfold coordSpan
  split
  · next hlt => rw [UInt64.toNat_ofNat_of_lt' hlt, Nat.min_eq_left (Nat.le_sub_one_of_lt hlt)]
  · next hge =>
    rw [UInt64.toNat_ofNat_of_lt' (by decide), Nat.min_eq_right]
    exact Nat.le_trans (Nat.sub_le _ _) (Nat.le_of_not_lt hge)

/-! ## Coordinates -/

/-- **The loop over the coordinates.** While eight bytes are left for each coordinate to come, no word is read past the
end, and each coordinate finds its place in memory. -/
theorem fetchCoords_spec (count : Nat) {bytes : List UInt8} (hb : coordWidth * count ≤ bytes.length) :
    (fetchCoords count bytes).outcome =
        .ok (readCoords count (bytes.take (coordWidth * count)), bytes.drop (coordWidth * count)) ∧
      Within bytes.length count (fetchCoords count bytes).acts ∧
      consumed (fetchCoords count bytes).acts = coordWidth * count ∧
      reserved (fetchCoords count bytes).acts = [] := by
  induction count generalizing bytes with
  | zero => exact ⟨rfl, rfl, rfl, rfl⟩
  | succ count ih =>
    have hspan : coordWidth * (count + 1) = coordWidth + coordWidth * count := by rw [Nat.mul_succ, Nat.add_comm]
    have hword : coordWidth ≤ bytes.length := by omega
    have hrest : coordWidth * count ≤ (bytes.drop coordWidth).length := by
      rw [List.length_drop]
      omega
    obtain ⟨houtcome, hwithin, hconsumed, hreserved⟩ := ih hrest
    -- one word and one place, and then the loop goes on
    have hrun : fetchCoords (count + 1) bytes =
        ⟨.ok (readCoords (count + 1) (bytes.take (coordWidth * (count + 1))), bytes.drop (coordWidth * (count + 1))),
          .read coordWidth bytes.length :: .push :: (fetchCoords count (bytes.drop coordWidth)).acts⟩ := by
      rw [fetchCoords, readWord_of_le hword, Run.bind_of_ok rfl]
      dsimp only
      rw [Run.perform_bind, Run.bind_of_ok houtcome, hspan, readCoords, List.take_take, List.drop_take, List.drop_drop,
        Nat.min_eq_left (Nat.le_add_right _ _), Nat.add_sub_cancel_left]
      simp only [pure, List.append_nil, List.singleton_append]
    rw [hrun]
    refine ⟨rfl, ⟨⟨rfl, hword⟩, Nat.succ_pos _, ?_⟩, ?_, hreserved⟩
    · rwa [List.length_drop] at hwithin
    · simp only [consumed_cons, Act.width, hconsumed]
      omega

section Sequences

variable {m : Machine} {bytes : List UInt8}

/-- The bytes of a buffer are counted below the largest word. -/
theorem lt_largest {n : Nat} (hn : n < m.reach) : n < UInt64.size - 1 := by
  have hreach : m.reach ≤ 2 ^ 63 := Nat.pow_le_pow_right (by decide) (Nat.sub_le_sub_right m.addressBits_le 1)
  exact Nat.lt_of_lt_of_le hn (Nat.le_trans hreach (by decide))

/-- A number of bytes that a buffer can have is an address. -/
theorem toAddress_eq {count : UInt64} (hcount : count.toNat < m.reach) : m.toAddress count = count.toNat :=
  Nat.mod_eq_of_lt (Nat.lt_of_lt_of_le hcount (Nat.pow_le_pow_right (by decide) (Nat.sub_le _ _)))

/-- Memory for coordinates that are all left in a buffer can be set aside. -/
theorem reserve_of_le {count : UInt64} (hb : bytes.length < m.reach) (hroom : coordWidth * count.toNat ≤ bytes.length)
    (axis : Axis) : m.reserve axis count = ⟨.ok (), [.reserve axis count count.toNat]⟩ := by
  have hcount : count.toNat < m.reach := by
    rw [coordWidth] at hroom
    omega
  simp only [reserve, toAddress_eq hcount, Run.perform_bind]
  rw [if_neg (Nat.not_le.mpr (Nat.lt_of_le_of_lt hroom hb))]
  rfl

/-- Coordinates that are all left are read into memory for just as many. -/
theorem fetchValues_of_le (hb : bytes.length < m.reach) (axis : Axis) {count : UInt64}
    (hroom : coordWidth * count.toNat ≤ bytes.length) :
    m.fetchValues axis count bytes =
      ⟨(fetchCoords count.toNat bytes).outcome,
        .reserve axis count count.toNat :: (fetchCoords count.toNat bytes).acts⟩ := by
  have hlargest := lt_largest hb
  have hneeded : ¬ bytes.length < (coordSpan count).toNat := by
    rw [toNat_coordSpan]
    omega
  rw [fetchValues, require_eq (Nat.lt_of_lt_pred hlargest), if_neg hneeded, Run.pure_bind, reserve_of_le hb hroom,
    Run.bind_of_ok rfl]
  rfl

/-- Memory is set aside only behind the check that all coordinates are left. -/
theorem follows_fetchValues (hb : bytes.length < m.reach) (axis : Axis) (count : UInt64) :
    Follows bytes.length (m.fetchValues axis count bytes)
      (takeField (.values axis) (coordWidth * count.toNat) bytes >>= fun read =>
        .ok (readCoords count.toNat read.1, read.2))
      fun read => read.2.length := by
  by_cases hroom : coordWidth * count.toNat ≤ bytes.length
  · obtain ⟨houtcome, hwithin, hconsumed, -⟩ := fetchCoords_spec count.toNat hroom
    rw [fetchValues_of_le hb axis hroom, takeField, if_pos hroom]
    refine ⟨houtcome, ⟨⟨rfl, rfl, hroom⟩, hwithin⟩, fun read hread => ?_⟩
    cases hread
    simp [Act.width, hconsumed]
  · have hlargest := lt_largest hb
    have hneeded : bytes.length < (coordSpan count).toNat := by
      rw [toNat_coordSpan]
      omega
    rw [fetchValues, require_eq (Nat.lt_of_lt_pred hlargest), if_pos hneeded, Run.refuse_bind, takeField, if_neg hroom,
      toNat_coordSpan]
    exact .refuse _ _

theorem follows_fetchSequence (hb : bytes.length < m.reach) (limit : UInt64) (axis : Axis) :
    Follows bytes.length (m.fetchSequence limit axis bytes) (takeSequence limit axis bytes)
      fun read => read.2.length := by
  refine (follows_fetchWord _ (by decide) (Nat.lt_of_lt_pred (lt_largest hb))).bind ?_
  rintro ⟨count, rest⟩ hread
  obtain ⟨hcount, -⟩ := takeWord_eq_ok_iff.mp hread
  have hlength := length_of_takeWord hread
  have hrest : rest.length < m.reach := by omega
  have hword : (UInt64.ofNat count).toNat = count := UInt64.toNat_ofNat_of_lt' hcount
  have hvalues := follows_fetchValues hrest axis (UInt64.ofNat count)
  rw [hword] at hvalues
  exact (follows_checkCount _ limit axis hcount).bind fun _ _ => hvalues

/-- For a sequence that is read, memory is set aside once, for as many coordinates as it has. -/
theorem reserved_fetchSequence (hb : bytes.length < m.reach) {limit : UInt64} {axis : Axis} {values : List Coord}
    {rest : List UInt8} (hread : takeSequence limit axis bytes = .ok (values, rest)) :
    reserved (m.fetchSequence limit axis bytes).acts = [(axis, values.length)] := by
  simp only [takeSequence, bind_eq_ok_iff, Prod.exists, pure_eq_ok, Except.ok.injEq, Prod.mk.injEq] at hread
  obtain ⟨count, rest', hcount, _, hlimit, word, _, hfield, rfl, rfl⟩ := hread
  have hlength := length_of_takeWord hcount
  have hrest : rest'.length < m.reach := by omega
  have hword : (UInt64.ofNat count).toNat = count := UInt64.toNat_ofNat_of_lt' (takeWord_eq_ok_iff.mp hcount).1
  have hroom : coordWidth * (UInt64.ofNat count).toNat ≤ rest'.length := by
    obtain ⟨hwidth, rfl⟩ := takeField_eq_ok_iff.mp hfield
    rw [hword, ← hwidth, List.length_append]
    exact Nat.le_add_right _ _
  have hcheck : checkCount limit axis (UInt64.ofNat count) = pure () := by
    refine if_neg fun hlt => ?_
    rw [UInt64.lt_iff_toNat_lt, hword] at hlt
    exact Nat.not_lt.mpr (checkLimit_eq_ok_iff.mp hlimit) hlt
  have hloop := (fetchCoords_spec _ hroom).2.2.2
  unfold fetchSequence
  rw [(follows_fetchWord _ (by decide) (Nat.lt_of_lt_pred (lt_largest hb))).acts_bind hcount, reserved_append,
    reserved_fetchWord]
  dsimp only
  rw [hcheck, Run.pure_bind, fetchValues_of_le hrest axis hroom, reserved_cons_reserve, hloop, hword, length_readCoords]
  rfl

end Sequences

/-! ## Buffers -/

section Buffers

variable {m : Machine} {bytes : List UInt8} (hb : bytes.length < m.reach)
include hb

theorem follows_fetchIdentity :
    Follows bytes.length (fetchIdentity bytes) (takeIdentity bytes) fun read => read.2.2.length := by
  have hword : bytes.length < UInt64.size := Nat.lt_of_lt_pred (lt_largest hb)
  refine (follows_fetchWord _ (by decide) hword).bind ?_
  rintro ⟨tag, rest⟩ htag
  have hlength := length_of_takeWord htag
  have hrest : rest.length < UInt64.size := by omega
  dsimp only
  cases Revision.ofTag? (UInt32.ofNat tag) with
  | none => exact .refuse _ _
  | some revision => exact (follows_fetchWord _ (by decide) hrest).bind fun _ _ => .pure rfl

omit hb in
theorem reserved_fetchIdentity (bytes : List UInt8) : reserved (fetchIdentity bytes).acts = [] := by
  refine reserved_bind (reserved_fetchWord _ _ bytes) ?_
  rintro ⟨tag, rest⟩
  dsimp only
  cases Revision.ofTag? (UInt32.ofNat tag) with
  | none => rfl
  | some revision => exact reserved_bind (reserved_fetchWord _ _ rest) fun _ => rfl

/-- The reader of the header leaves all that stands behind the sixteenth byte. -/
theorem follows_fetchHeader :
    Follows bytes.length (fetchHeader bytes) (readHeader bytes) fun _ => bytes.length - 16 := by
  have hword : bytes.length < UInt64.size := Nat.lt_of_lt_pred (lt_largest hb)
  refine (follows_fetchIdentity hb).bind ?_
  rintro ⟨revision, id, rest⟩ hidentity
  have hlength := length_of_takeIdentity hidentity
  have hrest : rest.length < UInt64.size := by omega
  refine (follows_fetchWord _ (by decide) hrest).bind ?_
  rintro ⟨count, rest'⟩ hcount
  have hlength' := length_of_takeWord hcount
  rw [countWidth] at hlength'
  have hleft : bytes.length - 16 = rest'.length := by omega
  exact .pure hleft

omit hb in
/-- No more bytes are left than there were. -/
theorem follows_checkEnd {rest : List UInt8} (hrest : rest.length ≤ bytes.length) (p : Path) :
    Follows rest.length (checkEnd bytes rest p)
      (if rest.isEmpty then .ok p else .error (.trailingBytes (bytes.length - rest.length) bytes.length))
      fun _ => 0 := by
  unfold checkEnd
  by_cases hempty : rest.isEmpty
  · rw [if_pos hempty, if_pos hempty]
    exact .pure (by simp [List.isEmpty_iff.mp hempty])
  · rw [if_neg hempty, if_neg hempty]
    simp only [subtract, Run.perform_bind, if_neg (Nat.not_lt.mpr hrest)]
    exact ⟨rfl, ⟨⟨rfl, hrest⟩, rfl⟩, fun _ h => by cases h⟩

theorem follows_fetchPath (f : Format) :
    Follows bytes.length (m.fetchPath f bytes) (f.decode bytes) fun _ => 0 := by
  refine (follows_fetchIdentity hb).bind ?_
  rintro ⟨revision, id, restX⟩ hidentity
  have hrestX : restX.length ≤ bytes.length := by
    rw [length_of_takeIdentity hidentity]
    exact Nat.le_add_left _ _
  refine (follows_fetchSequence (Nat.lt_of_le_of_lt hrestX hb) f.limit .x).bind ?_
  rintro ⟨x, restY⟩ hx
  have hrestY := Nat.le_trans (length_le_of_takeSequence hx) hrestX
  refine (follows_fetchSequence (Nat.lt_of_le_of_lt hrestY hb) f.limit .y).bind ?_
  rintro ⟨y, rest⟩ hy
  exact follows_checkEnd (Nat.le_trans (length_le_of_takeSequence hy) hrestY) ⟨id, x, y⟩

/-- For a path that is read, memory is set aside once for each sequence. -/
theorem reserved_fetchPath {f : Format} {p : Path} (hread : f.decode bytes = .ok p) :
    reserved (m.fetchPath f bytes).acts = [(.x, p.x.length), (.y, p.y.length)] := by
  simp only [Format.decode, bind_eq_ok_iff, Prod.exists, guard_eq_ok_iff, pure_eq_ok, Except.ok.injEq] at hread
  obtain ⟨revision, id, restX, hidentity, x, restY, hx, y, rest, hy, hend, rfl⟩ := hread
  have hrestX : restX.length < m.reach := by
    have hlength := length_of_takeIdentity hidentity
    omega
  have hrestY : restY.length < m.reach := Nat.lt_of_le_of_lt (length_le_of_takeSequence hx) hrestX
  unfold fetchPath
  rw [(follows_fetchIdentity hb).acts_bind hidentity]
  dsimp only
  rw [(follows_fetchSequence hrestX f.limit .x).acts_bind hx]
  dsimp only
  rw [(follows_fetchSequence hrestY f.limit .y).acts_bind hy]
  dsimp only
  rw [checkEnd, if_pos hend]
  simp only [reserved_append, reserved_fetchIdentity, reserved_fetchSequence hrestX hx,
    reserved_fetchSequence hrestY hy]
  rfl

end Buffers

end Machine

/-- **Reading stays within bounds.** On a machine with 64-bit words and addresses of any length up to that, take a
buffer that the machine can hold, with whatever bytes, and whatever limit. The readers of the path and of the header
answer what `decode` and `readHeader` answer, so the machine does not break down. Whether they succeed or fail, they
read no word past the end; they set memory aside for exactly as many coordinates as the count of the sequence says,
which is not cut down to an address and is at most an eighth of the buffer's length, and then fill it exactly; and no
difference falls below zero. When a path is read, all bytes have been, and memory was set aside once for each of its
sequences. -/
theorem reading_stays_in_bounds (m : Machine) (f : Format) (bytes : List UInt8) (hb : bytes.length < m.reach) :
    ((m.fetchPath f bytes).outcome = (f.decode bytes).mapError .refused ∧
        InBounds bytes.length (m.fetchPath f bytes).acts ∧
        ∀ p, f.decode bytes = .ok p → consumed (m.fetchPath f bytes).acts = bytes.length ∧
          reserved (m.fetchPath f bytes).acts = [(.x, p.x.length), (.y, p.y.length)]) ∧
      (Machine.fetchHeader bytes).outcome = (readHeader bytes).mapError .refused ∧
        InBounds bytes.length (Machine.fetchHeader bytes).acts := by
  have hpath := Machine.follows_fetchPath hb f
  have hheader := Machine.follows_fetchHeader hb
  refine ⟨⟨hpath.outcome_eq, hpath.within.inBounds, fun p hp => ⟨?_, Machine.reserved_fetchPath hb hp⟩⟩,
    hheader.outcome_eq, hheader.within.inBounds⟩
  have hle := hpath.within.consumed_le
  have hleft := hpath.leaves_eq p hp
  omega

/-- With the largest limit, on a machine with 32-bit addresses. A count that no word can be multiplied with is refused
before memory is set aside. A buffer that goes on behind its end is read to there: memory for one coordinate is set
aside and filled, then for none, and 33 bytes are not fewer than the one that is left. -/
theorem reading_stays_in_bounds_largest_limit :
    let m : Machine := ⟨32, by decide⟩
    let f : Format := { limit := UInt64.ofNat (UInt64.size - 1) }
    let huge : List UInt8 := [1, 0, 0, 0, 1, 0, 0, 0] ++ List.replicate 8 255 ++ List.replicate 8 0
    let long : List UInt8 := pathBytes .one ⟨5, [⟨7⟩], []⟩ ++ [0]
    (huge.length < m.reach ∧ (m.fetchPath f huge).acts = [.read 4 24, .read 4 20, .read 8 16] ∧
        InBounds 24 (m.fetchPath f huge).acts ∧
        (m.fetchPath f huge).outcome = .error (.refused (.truncated (.values .x) (UInt64.size - 1) 8))) ∧
      long.length < m.reach ∧
        (m.fetchPath f long).acts =
          [.read 4 33, .read 4 29, .read 8 25, .reserve .x 1 1, .read 8 17, .push, .read 8 9, .reserve .y 0 0,
            .subtract 33 1] ∧
        InBounds 33 (m.fetchPath f long).acts ∧
        (m.fetchPath f long).outcome = .error (.refused (.trailingBytes 32 33)) := by
  intro m f huge long
  have hhuge : huge.length < m.reach := by decide
  have hlong : long.length < m.reach := by decide
  obtain ⟨houtcome, hbounds, -⟩ := (reading_stays_in_bounds m f huge hhuge).1
  obtain ⟨houtcome', hbounds', -⟩ := (reading_stays_in_bounds m f long hlong).1
  refine ⟨⟨hhuge, ?_, hbounds, ?_⟩, hlong, ?_, hbounds', ?_⟩
  · decide +kernel
  · rw [houtcome]
    decide +kernel
  · decide +kernel
  · rw [houtcome']
    decide +kernel

end Polypath.Wire
