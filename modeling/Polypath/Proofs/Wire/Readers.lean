import Mathlib.Algebra.Ring.Nat
import Polypath.Proofs.Outcome
import Polypath.Wire.Format

/-!
# What the readers of a buffer accept

Each reader takes one part off the front of a buffer. Each lemma `…_eq_ok_iff` below says which buffers the reader
accepts: exactly those that begin with the writing of the part it gives back, and it leaves what follows. So no byte of
a part goes unread, and none can be changed without changing what is read.
-/

namespace Polypath.Wire

open Outcome

/-! ## Words -/

namespace Word

/-- A word of a given width stands for a number in its range. -/
theorem ofBytes_lt (bs : List UInt8) : ofBytes bs < 256 ^ bs.length := by
  induction bs with
  | nil => simp [ofBytes]
  | cons b bs ih =>
    have hb : b.toNat < 256 := b.toNat_lt
    simp only [ofBytes, List.length_cons, Nat.pow_succ]
    omega

/-- What is read back is the number modulo the word's range. -/
theorem ofBytes_toBytes (width n : Nat) : ofBytes (toBytes width n) = n % 256 ^ width := by
  induction width generalizing n with
  | zero => simp [toBytes, ofBytes, Nat.mod_one]
  | succ width ih =>
    have hpow : 256 ^ (width + 1) = 256 * 256 ^ width := by rw [Nat.pow_succ, Nat.mul_comm]
    simp only [toBytes, ofBytes, ih, UInt8.toNat_ofNat']
    rw [hpow, Nat.mod_mul]

/-- A byte string of a word's width is a number exactly when it is the number's writing. -/
theorem ofBytes_eq_iff {width n : Nat} {bs : List UInt8} (hl : bs.length = width) (hn : n < 256 ^ width) :
    ofBytes bs = n ↔ bs = toBytes width n := by
  constructor
  · rintro rfl
    rw [← hl, toBytes_ofBytes]
  · rintro rfl
    rw [ofBytes_toBytes, Nat.mod_eq_of_lt hn]

end Word

/-! ## Fields -/

/-- A field is split off exactly from a buffer that begins with it. -/
theorem takeField_eq_ok_iff {field : Field} {width : Nat} {bytes word rest : List UInt8} :
    takeField field width bytes = .ok (word, rest) ↔ word.length = width ∧ bytes = word ++ rest := by
  unfold takeField
  constructor
  · intro h
    split at h
    · next hw =>
      simp only [Except.ok.injEq, Prod.mk.injEq] at h
      obtain ⟨rfl, rfl⟩ := h
      exact ⟨List.length_take_of_le hw, (List.take_append_drop width bytes).symm⟩
    · cases h
  · rintro ⟨rfl, rfl⟩
    simp

/-- A number is read exactly from a buffer that begins with its writing. -/
theorem takeWord_eq_ok_iff {field : Field} {width n : Nat} {bytes rest : List UInt8} :
    takeWord field width bytes = .ok (n, rest) ↔ n < 256 ^ width ∧ bytes = Word.toBytes width n ++ rest := by
  simp only [takeWord, bind_eq_ok_iff, Prod.exists, takeField_eq_ok_iff, pure_eq_ok, Except.ok.injEq, Prod.mk.injEq]
  constructor
  · rintro ⟨word, _, ⟨rfl, rfl⟩, rfl, rfl⟩
    exact ⟨Word.ofBytes_lt word, by rw [Word.toBytes_ofBytes]⟩
  · rintro ⟨hn, rfl⟩
    have hl := Word.length_toBytes width n
    exact ⟨_, rest, ⟨hl, rfl⟩, (Word.ofBytes_eq_iff hl hn).mpr rfl, rfl⟩

/-! ## Coordinates -/

@[simp]
theorem length_coordBytes (values : List Coord) : (coordBytes values).length = coordWidth * values.length := by
  induction values with
  | nil => rfl
  | cons c values ih =>
    simp only [coordBytes, List.flatMap_cons, List.length_append, Word.length_toBytes] at ih ⊢
    rw [ih, List.length_cons, Nat.mul_add_one, Nat.add_comm]

theorem length_sequenceBytes (values : List Coord) :
    (sequenceBytes values).length = countWidth + coordWidth * values.length := by
  rw [sequenceBytes, List.length_append, Word.length_toBytes, length_coordBytes]

/-- The length of a buffer is settled by the lengths of the sequences. -/
theorem length_pathBytes (r : Revision) (p : Path) :
    (pathBytes r p).length = bufferLength p.x.length p.y.length := by
  simp only [pathBytes, List.length_append, Word.length_toBytes, length_sequenceBytes, bufferLength, minLength,
    headerLength, Nat.mul_add]
  omega

@[simp]
theorem length_readCoords (count : Nat) (bytes : List UInt8) : (readCoords count bytes).length = count := by
  induction count generalizing bytes with
  | zero => rfl
  | succ count ih => simp [readCoords, ih]

/-- Coordinates are read back bit for bit. -/
theorem readCoords_coordBytes (values : List Coord) : readCoords values.length (coordBytes values) = values := by
  induction values with
  | nil => rfl
  | cons c values ih =>
    have hl := Word.length_toBytes coordWidth c.bits.toNat
    have hc : Word.ofBytes (Word.toBytes coordWidth c.bits.toNat) = c.bits.toNat :=
      (Word.ofBytes_eq_iff hl c.bits.toNat_lt).mpr rfl
    simp only [coordBytes, List.flatMap_cons, List.length_cons, readCoords] at ih ⊢
    rw [List.take_left' hl, List.drop_left' hl, ih, hc]
    simp

/-- Bytes for a number of coordinates are the writing of the coordinates that are read from them. -/
theorem coordBytes_readCoords (count : Nat) {bytes : List UInt8} (hl : bytes.length = coordWidth * count) :
    coordBytes (readCoords count bytes) = bytes := by
  induction count generalizing bytes with
  | zero => exact (List.eq_nil_of_length_eq_zero hl).symm
  | succ count ih =>
    have hrest : (bytes.drop coordWidth).length = coordWidth * count := by
      rw [List.length_drop, hl]
      unfold coordWidth
      omega
    have hword : (bytes.take coordWidth).length = coordWidth := by
      rw [List.length_take, hl]
      unfold coordWidth
      omega
    have hlt : Word.ofBytes (bytes.take coordWidth) < UInt64.size := by
      have := Word.ofBytes_lt (bytes.take coordWidth)
      rwa [hword] at this
    have hbits : bytes.take coordWidth = Word.toBytes coordWidth (Word.ofBytes (bytes.take coordWidth)) :=
      (Word.ofBytes_eq_iff hword hlt).mp rfl
    have htail := ih hrest
    simp only [coordBytes, readCoords, List.flatMap_cons] at htail ⊢
    rw [UInt64.toNat_ofNat_of_lt' hlt, htail, ← hbits, List.take_append_drop]

/-! ## Sequences -/

/-- Lengths that respect a limit fit into a count. -/
theorem lt_countRange {limit : UInt64} {n : Nat} (h : n ≤ limit.toNat) : n < 256 ^ countWidth :=
  Nat.lt_of_le_of_lt h limit.toNat_lt

theorem checkLimit_eq_ok_iff {limit : UInt64} {axis : Axis} {count : Nat} {u : Unit} :
    checkLimit limit axis count = .ok u ↔ count ≤ limit.toNat := by
  unfold checkLimit
  split <;> simp_all

/-- A sequence is read exactly from a buffer that begins with its writing, if it respects the limit. -/
theorem takeSequence_eq_ok_iff {limit : UInt64} {axis : Axis} {bytes rest : List UInt8} {values : List Coord} :
    takeSequence limit axis bytes = .ok (values, rest) ↔
      values.length ≤ limit.toNat ∧ bytes = sequenceBytes values ++ rest := by
  simp only [takeSequence, bind_eq_ok_iff, Prod.exists, takeWord_eq_ok_iff, checkLimit_eq_ok_iff, takeField_eq_ok_iff,
    pure_eq_ok, Except.ok.injEq, Prod.mk.injEq]
  constructor
  · rintro ⟨count, _, ⟨-, rfl⟩, _, hlimit, word, _, ⟨hword, rfl⟩, rfl, rfl⟩
    refine ⟨by simpa using hlimit, ?_⟩
    rw [sequenceBytes, length_readCoords, coordBytes_readCoords count hword, List.append_assoc]
  · rintro ⟨hlimit, rfl⟩
    refine ⟨values.length, coordBytes values ++ rest, ⟨lt_countRange hlimit, ?_⟩, (), hlimit, coordBytes values, rest,
      ⟨length_coordBytes values, rfl⟩, readCoords_coordBytes values, rfl⟩
    rw [sequenceBytes, List.append_assoc]

/-! ## The version tag and the id -/

theorem Revision.ofTag?_eq_some_iff {tag : UInt32} {r : Revision} : Revision.ofTag? tag = some r ↔ tag = r.tag := by
  constructor
  · intro h
    have ht := List.find?_some (p := fun r : Revision => r.tag == tag) h
    exact (beq_iff_eq.mp ht).symm
  · rintro rfl
    cases r
    rfl

/-- The tag and the id are read exactly from a buffer that begins with their writing. -/
theorem takeIdentity_eq_ok_iff {bytes rest : List UInt8} {r : Revision} {id : UInt32} :
    takeIdentity bytes = .ok (r, id, rest) ↔
      bytes = Word.toBytes versionWidth r.tag.toNat ++ (Word.toBytes idWidth id.toNat ++ rest) := by
  simp only [takeIdentity, bind_eq_ok_iff, Prod.exists, takeWord_eq_ok_iff]
  constructor
  · rintro ⟨tag, _, ⟨htag, rfl⟩, h⟩
    split at h
    · cases h
    · next r' hr =>
      simp only [bind_eq_ok_iff, Prod.exists, takeWord_eq_ok_iff, pure_eq_ok, Except.ok.injEq] at h
      obtain ⟨n, _, ⟨hn, rfl⟩, h⟩ := h
      cases h
      rw [← Revision.ofTag?_eq_some_iff.mp hr, UInt32.toNat_ofNat_of_lt' htag, UInt32.toNat_ofNat_of_lt' hn]
  · rintro rfl
    refine ⟨r.tag.toNat, _, ⟨r.tag.toNat_lt, rfl⟩, ?_⟩
    have hr : Revision.ofTag? (UInt32.ofNat r.tag.toNat) = some r := by
      rw [UInt32.ofNat_toNat, Revision.ofTag?_eq_some_iff]
    rw [hr]
    simp only [bind_eq_ok_iff, Prod.exists, takeWord_eq_ok_iff]
    exact ⟨id.toNat, rest, ⟨id.toNat_lt, rfl⟩, by simp⟩

/-! ## Choosing a reader

Whoever chooses the reader of a buffer by its revision has looked at the version tag before the reader looks at it
again. The second look finds the same (`takeIdentity_eq`), so it refuses nothing, and to choose first makes no
difference to what is read. -/

section Revisions

variable {bytes : List UInt8}

/-- **The second look is redundant.** Behind a revision that was found, the reader finds the same and has only the id
left to read, and a revision that is not found is the fault of the reader too. -/
theorem takeIdentity_eq (bytes : List UInt8) :
    takeIdentity bytes = readRevision bytes >>= fun r =>
      takeWord .id idWidth (bytes.drop versionWidth) >>= fun (id, rest) => .ok (r, UInt32.ofNat id, rest) := by
  unfold takeIdentity readRevision readVersion
  by_cases hlong : versionWidth ≤ bytes.length
  · have htag : takeWord .version versionWidth bytes =
        .ok (Word.ofBytes (bytes.take versionWidth), bytes.drop versionWidth) := by
      simp only [takeWord, takeField, if_pos hlong, ok_bind, pure_eq_ok]
    simp only [htag, ok_bind, pure_eq_ok]
    cases Revision.ofTag? (UInt32.ofNat (Word.ofBytes (bytes.take versionWidth))) with
    | none => rfl
    | some r => rfl
  · simp only [takeWord, takeField, if_neg hlong, error_bind]

/-- A reader that begins with the tag and the id may be chosen by the tag or not. -/
theorem readRevision_bind {β : Type} (bytes : List UInt8) (next : Revision × UInt32 × List UInt8 → Except Fault β) :
    (readRevision bytes >>= fun _ => takeIdentity bytes >>= next) = takeIdentity bytes >>= next := by
  rw [takeIdentity_eq]
  cases readRevision bytes with
  | ok r => rfl
  | error fault => rfl

theorem peekHeader_eq_readHeader (bytes : List UInt8) : peekHeader bytes = readHeader bytes :=
  readRevision_bind bytes _

/-- A reported length is compared before anything is read; nothing else depends on it. -/
theorem Format.decodeReported_eq (f : Format) (reported : Option Nat) (bytes : List UInt8) :
    f.decodeReported reported bytes = checkReported reported bytes >>= fun _ => f.decode bytes := by
  have hchosen : (readRevision bytes >>= fun r => f.decodeAs r bytes) = f.decode bytes := readRevision_bind bytes _
  rw [decodeReported, hchosen]

/-- A reported length that is right is as good as none. -/
theorem Format.decodeReported_of_length {reported : Option Nat}
    (hreported : reported = none ∨ reported = some bytes.length) (f : Format) :
    f.decodeReported reported bytes = f.decode bytes := by
  rw [decodeReported_eq]
  rcases hreported with rfl | rfl
  · rfl
  · simp [checkReported]

theorem checkReported_eq_ok_iff {reported : Option Nat} {u : Unit} :
    checkReported reported bytes = .ok u ↔ ∀ n ∈ reported, n = bytes.length := by
  cases reported with
  | none => simp [checkReported]
  | some n => by_cases hn : n = bytes.length <;> simp [checkReported, hn]

end Revisions

end Polypath.Wire
