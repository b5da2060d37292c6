import Mathlib.Algebra.BigOperators.Group.Finset.Basic
import Mathlib.Algebra.BigOperators.Ring.Finset
import Polypath.Proofs.Wire.Readers

/-!
# Buffers by absolute offsets

The readers follow a cursor through a buffer. Here the same answer is told without one: every field is a number at an
offset from the front (`wordAt`), what can be wrong is a table of checks in order (`checks`), the first check that fails
decides, and if none does the path is read off the offsets (`pathAt`). The main statement is `decode_by_offsets`.

Each reader that stands at an offset is a piece of the table: it gives the `verdict` of its own checks and goes on at
the next offset (`takeWord_drop`, `takeSequence_drop`). Chaining readers is putting their pieces together
(`verdict_bind`).
-/

namespace Polypath.Wire

open Outcome

/-! ## Numbers at offsets -/

/-- The byte at an offset, zero past the end. -/
def byteAt (bytes : List UInt8) (offset : Nat) : Nat := (bytes.getD offset 0).toNat

/-- The number in the `width` bytes from an offset on, the first byte counting least. -/
def wordAt (bytes : List UInt8) (offset width : Nat) : Nat :=
  ∑ i ∈ Finset.range width, 256 ^ i * byteAt bytes (offset + i)

/-- The coordinates from an offset on. -/
def coordsAt (bytes : List UInt8) (offset count : Nat) : List Coord :=
  (List.range count).map fun i => ⟨UInt64.ofNat (wordAt bytes (offset + 8 * i) 8)⟩

theorem wordAt_succ (bytes : List UInt8) (offset width : Nat) :
    wordAt bytes offset (width + 1) = byteAt bytes offset + 256 * wordAt bytes (offset + 1) width := by
  unfold wordAt
  rw [Finset.sum_range_succ', Finset.mul_sum, Nat.add_comm]
  congr 1
  · simp
  · apply Finset.sum_congr rfl
    intro i _
    rw [Nat.add_right_comm offset 1 i, Nat.add_assoc, pow_succ', Nat.mul_assoc]

/-- The first byte of a word counts once and the others 256 times what they count alone. -/
theorem Word.ofBytes_take_succ (bytes : List UInt8) (width : Nat) :
    ofBytes (bytes.take (width + 1)) = byteAt bytes 0 + 256 * ofBytes ((bytes.drop 1).take width) := by
  cases bytes with
  | nil => simp [ofBytes, byteAt]
  | cons b bytes => simp [ofBytes, byteAt]

/-- A word that is cut out of a buffer is the number at its offset. -/
theorem ofBytes_take_drop (bytes : List UInt8) (offset width : Nat) :
    Word.ofBytes ((bytes.drop offset).take width) = wordAt bytes offset width := by
  induction width generalizing offset with
  | zero => simp [Word.ofBytes, wordAt]
  | succ width ih =>
    have hbyte : byteAt (bytes.drop offset) 0 = byteAt bytes offset := by
      simp [byteAt, List.getD_eq_getElem?_getD]
    rw [Word.ofBytes_take_succ, List.drop_drop, ih, hbyte, wordAt_succ]

theorem wordAt_lt (bytes : List UInt8) (offset width : Nat) : wordAt bytes offset width < 256 ^ width := by
  rw [← ofBytes_take_drop]
  refine Nat.lt_of_lt_of_le (Word.ofBytes_lt _) (Nat.pow_le_pow_right (by decide) ?_)
  exact List.length_take_le _ _

/-- A number does not depend on what stands behind it. -/
theorem wordAt_take {bytes : List UInt8} {offset width k : Nat} (hk : offset + width ≤ k) :
    wordAt (bytes.take k) offset width = wordAt bytes offset width := by
  unfold wordAt
  apply Finset.sum_congr rfl
  intro i hi
  have hlt : offset + i < k := by
    have := Finset.mem_range.mp hi
    omega
  simp only [byteAt, List.getD_eq_getElem?_getD, List.getElem?_take_of_lt hlt]

theorem wordAt_append {bytes : List UInt8} {offset width : Nat} (hk : offset + width ≤ bytes.length)
    (more : List UInt8) : wordAt (bytes ++ more) offset width = wordAt bytes offset width := by
  rw [← wordAt_take hk, List.take_left]

/-- Coordinates that are cut out of a buffer are the numbers at their offsets. -/
theorem readCoords_take_drop (bytes : List UInt8) (offset count : Nat) :
    readCoords count ((bytes.drop offset).take (8 * count)) = coordsAt bytes offset count := by
  induction count generalizing offset with
  | zero => rfl
  | succ count ih =>
    have hfirst : ((bytes.drop offset).take (8 * (count + 1))).take 8 = (bytes.drop offset).take 8 := by
      rw [List.take_take, Nat.min_eq_left (by omega)]
    have hrest : ((bytes.drop offset).take (8 * (count + 1))).drop 8 = (bytes.drop (offset + 8)).take (8 * count) := by
      rw [List.drop_take, List.drop_drop]
      rfl
    rw [readCoords, coordWidth, hfirst, hrest, ih, ofBytes_take_drop, coordsAt, coordsAt, List.range_succ_eq_map,
      List.map_cons, List.map_map]
    congr 1
    apply List.map_congr_left
    intro i _
    simp only [Function.comp_apply, Nat.succ_eq_add_one, Nat.mul_add_one, Nat.add_assoc, Nat.add_comm 8]

/-! ## Checks -/

/-- Something that may be wrong with a buffer: whether it is, and the fault to answer then. -/
structure Check where
  fails : Bool
  fault : Fault
deriving DecidableEq, Repr

/-- The fault of the first check that fails, or the given answer if none does. -/
def verdict {α : Type} (checks : List Check) (answer : α) : Except Fault α :=
  match checks.find? Check.fails with
  | some check => .error check.fault
  | none => .ok answer

/-- No check fails. -/
def Clear (checks : List Check) : Prop :=
  ∀ check ∈ checks, check.fails = false

theorem clear_nil : Clear [] := List.forall_mem_nil _

theorem clear_cons (check : Check) (checks : List Check) :
    Clear (check :: checks) ↔ check.fails = false ∧ Clear checks :=
  List.forall_mem_cons

section Verdict

variable {α β : Type}

@[simp]
theorem verdict_nil (a : α) : verdict [] a = .ok a := rfl

theorem verdict_cons (check : Check) (checks : List Check) (a : α) :
    verdict (check :: checks) a = if check.fails then .error check.fault else verdict checks a := by
  unfold verdict
  rw [List.find?_cons]
  cases check.fails <;> rfl

/-- A check that states a condition decides when the condition holds. -/
theorem verdict_decide (bad : Prop) [Decidable bad] (fault : Fault) (checks : List Check) (a : α) :
    verdict (⟨bad, fault⟩ :: checks) a = if bad then .error fault else verdict checks a := by
  simp only [verdict_cons, decide_eq_true_eq]

/-- An answer is given exactly when no check fails. -/
theorem verdict_eq_ok_iff {checks : List Check} {a b : α} : verdict checks a = .ok b ↔ Clear checks ∧ a = b := by
  induction checks with
  | nil => simp [clear_nil]
  | cons check checks ih =>
    rw [verdict_cons, clear_cons]
    cases hfails : check.fails with
    | false => simp [ih]
    | true => simp

/-- The first check that fails decides. -/
theorem verdict_of_fails (before : List Check) {check : Check} {after : List Check} {a : α}
    (hfirst : Clear before ∧ check.fails = true) : verdict (before ++ check :: after) a = .error check.fault := by
  obtain ⟨hbefore, hfails⟩ := hfirst
  induction before with
  | nil => rw [List.nil_append, verdict_cons, if_pos hfails]
  | cons c before ih =>
    obtain ⟨hc, hrest⟩ := (clear_cons c before).mp hbefore
    rw [List.cons_append, verdict_cons, hc]
    exact ih hrest

/-- Checks one after the other are the checks of both, in order. -/
theorem verdict_bind (checks more : List Check) (a : α) (next : α → Except Fault β) {b : β}
    (hnext : next a = verdict more b) : verdict checks a >>= next = verdict (checks ++ more) b := by
  induction checks with
  | nil => exact hnext
  | cons check checks ih =>
    rw [List.cons_append, verdict_cons, verdict_cons]
    split
    · rfl
    · exact ih

end Verdict

/-- All that may be wrong with a buffer, in the order in which it is looked at. -/
def checks (limit : UInt64) (reported : Option Nat) (bytes : List UInt8) : List Check :=
  let n := bytes.length
  let version := wordAt bytes 0 4
  let xCount := wordAt bytes 8 8
  let yCount := wordAt bytes (16 + 8 * xCount) 8
  [ ⟨reported.any (· ≠ n), .lengthMismatch (reported.getD n) n⟩,
    ⟨n < 4, .truncated .version 4 n⟩,
    ⟨version ≠ 1, .unsupportedVersion (UInt32.ofNat version)⟩,
    ⟨n < 8, .truncated .id 4 (n - 4)⟩,
    ⟨n < 16, .truncated (.count .x) 8 (n - 8)⟩,
    ⟨limit.toNat < xCount, .tooManyElements .x xCount limit.toNat⟩,
    ⟨n - 16 < 8 * xCount, .truncated (.values .x) (min (8 * xCount) (UInt64.size - 1)) (n - 16)⟩,
    ⟨n - 16 - 8 * xCount < 8, .truncated (.count .y) 8 (n - 16 - 8 * xCount)⟩,
    ⟨limit.toNat < yCount, .tooManyElements .y yCount limit.toNat⟩,
    ⟨n - 24 - 8 * xCount < 8 * yCount,
      .truncated (.values .y) (min (8 * yCount) (UInt64.size - 1)) (n - 24 - 8 * xCount)⟩,
    ⟨24 + 8 * (xCount + yCount) < n, .trailingBytes (24 + 8 * (xCount + yCount)) n⟩ ]

/-- The path that stands in a buffer with which nothing is wrong. -/
def pathAt (bytes : List UInt8) : Path :=
  let xCount := wordAt bytes 8 8
  let yCount := wordAt bytes (16 + 8 * xCount) 8
  ⟨UInt32.ofNat (wordAt bytes 4 4), coordsAt bytes 16 xCount, coordsAt bytes (24 + 8 * xCount) yCount⟩

/-! ## Readers at offsets -/

/-- A reader of a field needs the field's bytes and goes on behind them. -/
theorem takeField_drop (field : Field) (width : Nat) (bytes : List UInt8) (offset : Nat) :
    takeField field width (bytes.drop offset) =
      verdict [⟨bytes.length - offset < width,
          .truncated field (min width (UInt64.size - 1)) (bytes.length - offset)⟩]
        ((bytes.drop offset).take width, bytes.drop (offset + width)) := by
  unfold takeField
  rw [verdict_cons, verdict_nil, List.length_drop, List.drop_drop]
  by_cases hw : width ≤ bytes.length - offset
  · simp [hw]
  · simp [hw, Nat.lt_of_not_le hw]

theorem takeWord_drop (field : Field) {width : Nat} (hw : width < UInt64.size) (bytes : List UInt8) (offset : Nat) :
    takeWord field width (bytes.drop offset) =
      verdict [⟨bytes.length - offset < width, .truncated field width (bytes.length - offset)⟩]
        (wordAt bytes offset width, bytes.drop (offset + width)) := by
  unfold takeWord
  rw [takeField_drop, Nat.min_eq_left (Nat.le_sub_one_of_lt hw)]
  refine verdict_bind _ [] _ _ ?_
  simp only [ofBytes_take_drop, pure_eq_ok, verdict_nil]

theorem checkLimit_eq_verdict (limit : UInt64) (axis : Axis) (count : Nat) :
    checkLimit limit axis count =
      verdict [⟨limit.toNat < count, .tooManyElements axis count limit.toNat⟩] () := by
  unfold checkLimit
  rw [verdict_cons, verdict_nil]
  by_cases hc : count ≤ limit.toNat
  · simp [hc]
  · simp [hc, Nat.lt_of_not_le hc]

/-- A reader of a sequence needs its count, the limit and the bytes of the coordinates. -/
theorem takeSequence_drop (limit : UInt64) (axis : Axis) (bytes : List UInt8) (offset : Nat) :
    let n := bytes.length
    let count := wordAt bytes offset 8
    takeSequence limit axis (bytes.drop offset) =
      verdict
        [ ⟨n - offset < 8, .truncated (.count axis) 8 (n - offset)⟩,
          ⟨limit.toNat < count, .tooManyElements axis count limit.toNat⟩,
          ⟨n - (offset + 8) < 8 * count,
            .truncated (.values axis) (min (8 * count) (UInt64.size - 1)) (n - (offset + 8))⟩ ]
        (coordsAt bytes (offset + 8) count, bytes.drop (offset + 8 + 8 * count)) := by
  intro n count
  unfold takeSequence
  rw [takeWord_drop _ (by decide)]
  refine verdict_bind [_] [_, _] _ _ ?_
  simp only [checkLimit_eq_verdict]
  refine verdict_bind [_] [_] _ _ ?_
  simp only [coordWidth, takeField_drop]
  refine verdict_bind [_] [] _ _ ?_
  simp only [readCoords_take_drop, pure_eq_ok, verdict_nil]
  rfl

/-- The reader of the x sequence stands behind the id. -/
theorem takeSequence_x (limit : UInt64) (bytes : List UInt8) :
    let n := bytes.length
    let count := wordAt bytes 8 8
    takeSequence limit .x (bytes.drop 8) =
      verdict
        [ ⟨n < 16, .truncated (.count .x) 8 (n - 8)⟩,
          ⟨limit.toNat < count, .tooManyElements .x count limit.toNat⟩,
          ⟨n - 16 < 8 * count, .truncated (.values .x) (min (8 * count) (UInt64.size - 1)) (n - 16)⟩ ]
        (coordsAt bytes 16 count, bytes.drop (16 + 8 * count)) := by
  intro n count
  have hroom : decide (n - 8 < 8) = decide (n < 16) := decide_eq_decide.mpr (by omega)
  rw [← hroom]
  exact takeSequence_drop limit .x bytes 8

/-- The reader of the y sequence stands behind the x values. -/
theorem takeSequence_y (limit : UInt64) (bytes : List UInt8) (xCount : Nat) :
    let n := bytes.length
    let count := wordAt bytes (16 + 8 * xCount) 8
    takeSequence limit .y (bytes.drop (16 + 8 * xCount)) =
      verdict
        [ ⟨n - 16 - 8 * xCount < 8, .truncated (.count .y) 8 (n - 16 - 8 * xCount)⟩,
          ⟨limit.toNat < count, .tooManyElements .y count limit.toNat⟩,
          ⟨n - 24 - 8 * xCount < 8 * count,
            .truncated (.values .y) (min (8 * count) (UInt64.size - 1)) (n - 24 - 8 * xCount)⟩ ]
        (coordsAt bytes (24 + 8 * xCount) count, bytes.drop (24 + 8 * (xCount + count))) := by
  intro n count
  have hvalues : 24 + 8 * xCount = 16 + 8 * xCount + 8 := by omega
  have hend : 24 + 8 * (xCount + count) = 16 + 8 * xCount + 8 + 8 * count := by omega
  rw [Nat.sub_sub, Nat.sub_sub, hvalues, hend]
  exact takeSequence_drop limit .y bytes (16 + 8 * xCount)

/-- The only known version tag is one. -/
theorem Revision.ofTag?_ofNat {version : Nat} (hv : version < UInt32.size) :
    Revision.ofTag? (UInt32.ofNat version) = if version = 1 then some .one else none := by
  split
  · next he =>
    rw [he]
    rfl
  · next hne =>
    cases hr : Revision.ofTag? (UInt32.ofNat version) with
    | none => rfl
    | some r =>
      have htag := Revision.ofTag?_eq_some_iff.mp hr
      cases r
      rw [← UInt32.toNat_inj, UInt32.toNat_ofNat_of_lt' hv] at htag
      exact absurd htag hne

/-- A tag is looked at before anything behind it. -/
theorem ofTag?_eq_verdict {α : Type} {version : Nat} (hv : version < UInt32.size) (next : Revision → Except Fault α) :
    (match Revision.ofTag? (UInt32.ofNat version) with
      | none => throw (.unsupportedVersion (UInt32.ofNat version))
      | some revision => next revision) =
      verdict [⟨version ≠ 1, .unsupportedVersion (UInt32.ofNat version)⟩] .one >>= next := by
  rw [Revision.ofTag?_ofNat hv, verdict_cons, verdict_nil]
  by_cases he : version = 1
  · simp [he]
  · simp [he]

/-- The reader of the version tag and the id stands at the front. -/
theorem takeIdentity_eq_verdict (bytes : List UInt8) :
    let n := bytes.length
    let version := wordAt bytes 0 4
    takeIdentity bytes =
      verdict
        [ ⟨n < 4, .truncated .version 4 n⟩,
          ⟨version ≠ 1, .unsupportedVersion (UInt32.ofNat version)⟩,
          ⟨n < 8, .truncated .id 4 (n - 4)⟩ ]
        (.one, UInt32.ofNat (wordAt bytes 4 4), bytes.drop 8) := by
  intro n version
  have htag := takeWord_drop .version (by decide : versionWidth < UInt64.size) bytes 0
  rw [List.drop_zero] at htag
  unfold takeIdentity
  rw [htag]
  refine verdict_bind [_] [_, _] _ _ ?_
  refine (ofTag?_eq_verdict (wordAt_lt bytes 0 4) _).trans ?_
  refine verdict_bind [_] [_] _ _ ?_
  have hroom : decide (n - 4 < 4) = decide (n < 8) := decide_eq_decide.mpr (by omega)
  rw [← hroom, takeWord_drop .id (by decide : idWidth < UInt64.size)]
  exact verdict_bind [_] [] _ _ rfl

/-! ## Decoding -/

/-- A reported length is compared before anything else. -/
theorem Format.decodeReported_eq_bind (f : Format) (reported : Option Nat) (bytes : List UInt8) :
    f.decodeReported reported bytes =
      verdict [⟨reported.any (· ≠ bytes.length), .lengthMismatch (reported.getD bytes.length) bytes.length⟩] () >>=
        fun _ => f.decode bytes := by
  rw [decodeReported_eq, verdict_cons, verdict_nil]
  cases reported with
  | none => rfl
  | some n => by_cases hn : n = bytes.length <;> simp [checkReported, hn]

/-- Nothing may stand behind the sequences. -/
theorem trailing_eq_verdict (bytes : List UInt8) (offset : Nat) (p : Path) :
    (if (bytes.drop offset).isEmpty then pure p
      else throw (.trailingBytes (bytes.length - (bytes.drop offset).length) bytes.length)) =
      verdict [⟨offset < bytes.length, .trailingBytes offset bytes.length⟩] p := by
  rw [verdict_cons, verdict_nil, List.length_drop]
  by_cases ho : offset < bytes.length
  · have hsub : bytes.length - (bytes.length - offset) = offset := by omega
    simp [ho, hsub, Nat.not_le.mpr ho]
  · simp [ho, Nat.le_of_not_lt ho]

/-- The readers of a buffer, one behind the other, are the table without its first line. -/
theorem Format.decode_eq_verdict (f : Format) (reported : Option Nat) (bytes : List UInt8) :
    f.decode bytes = verdict (checks f.limit reported bytes).tail (pathAt bytes) := by
  unfold decode
  simp only [takeIdentity_eq_verdict]
  refine verdict_bind [_, _, _] [_, _, _, _, _, _, _] _ _ ?_
  simp only [takeSequence_x]
  refine verdict_bind [_, _, _] [_, _, _, _] _ _ ?_
  simp only [takeSequence_y]
  refine verdict_bind [_, _, _] [_] _ _ ?_
  dsimp only
  rw [trailing_eq_verdict]
  rfl

/-- **Buffers by absolute offsets.** Whatever bytes come, under whatever limit and with whatever reported length, the
answer is the fault of the first check that fails, with its details, and if none fails the path at the offsets. -/
theorem Format.decode_by_offsets (f : Format) (bytes : List UInt8) :
    (∀ reported, f.decodeReported reported bytes = verdict (checks f.limit reported bytes) (pathAt bytes)) ∧
      f.decode bytes = verdict (checks f.limit none bytes) (pathAt bytes) := by
  have hall : ∀ reported, f.decodeReported reported bytes = verdict (checks f.limit reported bytes) (pathAt bytes) := by
    intro reported
    rw [decodeReported_eq_bind]
    exact verdict_bind [_] _ () _ (f.decode_eq_verdict reported bytes)
  refine ⟨hall, ?_⟩
  rw [← hall none, decodeReported_eq]
  rfl

end Polypath.Wire
