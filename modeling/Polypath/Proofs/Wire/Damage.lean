import Polypath.Proofs.Wire.Canonical
import Polypath.Proofs.Wire.Limits
import Polypath.Proofs.Wire.Offsets

/-!
# Damaged buffers

A buffer is read exactly when it is *framed*: its counts account for its length to the byte (`exists_decode_iff_framed`).
This module says what becomes of a buffer that was read once and then damaged.

* **Cut or continued** (`cut_and_continued_buffers`): a proper beginning is refused for the part in which the cut falls,
  a continuation for the bytes behind the end. So no buffer that is read begins another one.
* **Counts written over** (`overwritten_counts`): a wrong y count is always refused, for one of three faults. A wrong
  x count moves the y count to another word of the buffer, and is accepted exactly when that word happens to close the
  frame again.
-/

namespace Polypath.Wire

open Outcome

/-! ## Framed buffers -/

/-- The counts that stand in a buffer account for its length. -/
structure Framed (bytes : List UInt8) (nx ny : Nat) : Prop where
  version : wordAt bytes 0 4 = 1
  xCount : wordAt bytes 8 8 = nx
  yCount : wordAt bytes (16 + 8 * nx) 8 = ny
  length : bytes.length = 24 + 8 * (nx + ny)

@[simp]
theorem length_coordsAt (bytes : List UInt8) (offset count : Nat) : (coordsAt bytes offset count).length = count := by
  simp [coordsAt]

namespace Format

variable {f : Format} {bytes : List UInt8} {nx ny : Nat}

/-- The lengths of the sequences of a path frame the buffer it is read from. -/
theorem framed_of_decode {p : Path} (hread : f.decode bytes = .ok p) : Framed bytes p.x.length p.y.length := by
  rw [decode_eq_verdict f none] at hread
  obtain ⟨hpass, rfl⟩ := verdict_eq_ok_iff.mp hread
  simp only [checks, List.tail_cons, clear_cons, decide_eq_false_iff_not, not_not, not_lt] at hpass
  obtain ⟨-, hversion, -, h16, -, hx, hroom, -, hy, hend, -⟩ := hpass
  simp only [pathAt, length_coordsAt]
  exact ⟨hversion, rfl, rfl, by omega⟩

/-- A framed buffer whose counts respect the limit is read. -/
theorem decode_of_framed (hframed : Framed bytes nx ny) (hx : nx ≤ f.limit.toNat) (hy : ny ≤ f.limit.toNat) :
    f.decode bytes = .ok (pathAt bytes) := by
  obtain ⟨hversion, hxCount, hyCount, hlength⟩ := hframed
  rw [decode_eq_verdict f none, verdict_eq_ok_iff]
  refine ⟨?_, rfl⟩
  simp only [checks, hversion, hxCount, hyCount, List.tail_cons, clear_cons, clear_nil, and_true, decide_eq_false_iff_not]
  omega

/-- A buffer is read exactly when it is framed by counts that respect the limit. -/
theorem exists_decode_iff_framed :
    (∃ p, f.decode bytes = .ok p) ↔ ∃ nx ny, Framed bytes nx ny ∧ nx ≤ f.limit.toNat ∧ ny ≤ f.limit.toNat := by
  constructor
  · rintro ⟨p, hread⟩
    obtain ⟨⟨hx, hy⟩, -⟩ := decode_eq_ok_iff.mp hread
    exact ⟨_, _, framed_of_decode hread, hx, hy⟩
  · rintro ⟨nx, ny, hframed, hx, hy⟩
    exact ⟨_, decode_of_framed hframed hx hy⟩

end Format

/-! ## Cuts and continuations -/

/-- A part of a buffer: its field, the offset of its first byte and its width. -/
structure Span where
  field : Field
  start : Nat
  width : Nat
deriving DecidableEq, Repr

/-- The part holds the byte at an offset. -/
def Span.Holds (span : Span) (offset : Nat) : Prop :=
  span.start ≤ offset ∧ offset < span.start + span.width

/-- The parts of a buffer with the given sequence lengths, one behind the other. -/
def layout (nx ny : Nat) : List Span :=
  [ ⟨.version, 0, 4⟩, ⟨.id, 4, 4⟩, ⟨.count .x, 8, 8⟩, ⟨.values .x, 16, 8 * nx⟩, ⟨.count .y, 16 + 8 * nx, 8⟩,
    ⟨.values .y, 24 + 8 * nx, 8 * ny⟩ ]

/-- The parts leave no gap. -/
theorem exists_span {nx ny offset : Nat} (ho : offset < 24 + 8 * (nx + ny)) :
    ∃ span ∈ layout nx ny, span.Holds offset := by
  simp only [layout, Span.Holds, List.mem_cons, List.not_mem_nil, or_false, exists_eq_or_imp, exists_eq_left]
  omega

namespace Format

variable {f : Format} {bytes : List UInt8} {nx ny : Nat}

/-- A framed buffer that is cut is refused for the part that would hold the next byte. -/
theorem decode_take (hframed : Framed bytes nx ny) (hx : nx ≤ f.limit.toNat) (hy : ny ≤ f.limit.toNat) {k : Nat}
    (hk : k < bytes.length) {span : Span} (hspan : span ∈ layout nx ny) (hholds : span.Holds k) :
    f.decode (bytes.take k) =
      .error (.truncated span.field (min span.width (UInt64.size - 1)) (k - span.start)) := by
  obtain ⟨hversion, hxCount, hyCount, hlength⟩ := hframed
  obtain ⟨hstart, hstop⟩ := hholds
  have hcut : (bytes.take k).length = k := List.length_take_of_le (Nat.le_of_lt hk)
  -- a number is looked at only if the cut lies behind it, and then it is the number in the whole buffer
  have hversion' : 4 ≤ k → wordAt (bytes.take k) 0 4 = 1 := fun h => (wordAt_take h).trans hversion
  have hxCount' : 16 ≤ k → wordAt (bytes.take k) 8 8 = nx := fun h => (wordAt_take h).trans hxCount
  rw [decode_eq_verdict f none]
  simp only [checks, List.tail_cons, hcut]
  simp only [layout, List.mem_cons, List.not_mem_nil, or_false] at hspan
  rcases hspan with rfl | rfl | rfl | rfl | rfl | rfl
  all_goals dsimp only at hstart hstop ⊢
  · refine verdict_of_fails [] ?_
    exact ⟨clear_nil, decide_eq_true (by omega)⟩
  · rw [hversion' hstart]
    refine verdict_of_fails [_, _] ?_
    simp only [clear_cons, clear_nil, and_true, decide_eq_false_iff_not, decide_eq_true_eq]
    omega
  · rw [hversion' (by omega)]
    refine verdict_of_fails [_, _, _] ?_
    simp only [clear_cons, clear_nil, and_true, decide_eq_false_iff_not, decide_eq_true_eq]
    omega
  · rw [hversion' (by omega), hxCount' hstart]
    refine verdict_of_fails [_, _, _, _, _] ?_
    simp only [clear_cons, clear_nil, and_true, decide_eq_false_iff_not, decide_eq_true_eq]
    omega
  · rw [hversion' (by omega), hxCount' (by omega), Nat.sub_sub]
    refine verdict_of_fails [_, _, _, _, _, _] ?_
    simp only [clear_cons, clear_nil, and_true, decide_eq_false_iff_not, decide_eq_true_eq]
    omega
  · rw [hversion' (by omega), hxCount' (by omega), wordAt_take (by omega), hyCount, Nat.sub_sub, Nat.sub_sub]
    refine verdict_of_fails [_, _, _, _, _, _, _, _] ?_
    simp only [clear_cons, clear_nil, and_true, decide_eq_false_iff_not, decide_eq_true_eq]
    omega

/-- A framed buffer that goes on is refused for what stands behind its end. -/
theorem decode_append (hframed : Framed bytes nx ny) (hx : nx ≤ f.limit.toNat) (hy : ny ≤ f.limit.toNat)
    {more : List UInt8} (hmore : more ≠ []) :
    f.decode (bytes ++ more) = .error (.trailingBytes bytes.length (bytes.length + more.length)) := by
  obtain ⟨hversion, hxCount, hyCount, hlength⟩ := hframed
  have hpos : 0 < more.length := List.length_pos_iff.mpr hmore
  rw [decode_eq_verdict f none]
  simp only [checks, List.tail_cons, List.length_append]
  rw [wordAt_append (by omega), wordAt_append (by omega), hversion, hxCount, wordAt_append (by omega), hyCount,
    ← hlength]
  refine verdict_of_fails [_, _, _, _, _, _, _, _, _] ?_
  simp only [clear_cons, clear_nil, and_true, decide_eq_false_iff_not, decide_eq_true_eq]
  omega

/-- **Cut and continued buffers.** Take a buffer that is read, under whatever limit. Each proper beginning of it is
refused for want of bytes: the fault names the part in which the cut falls, with its width as the bytes needed and its
beginning as the bytes available, which are fewer. Each continuation is refused for the bytes behind the end of the
buffer. Needs are told as 64-bit numbers, so the comparison is for buffers whose own length is one. -/
theorem cut_and_continued_buffers (f : Format) (bytes : List UInt8) (p : Path) (hread : f.decode bytes = .ok p) :
    (∀ cut, cut <+: bytes → cut ≠ bytes → ∀ reported, reported = none ∨ reported = some cut.length →
      ∃ span ∈ layout p.x.length p.y.length, span.Holds cut.length ∧ ∃ needed available,
        f.decodeReported reported cut = .error (.truncated span.field needed available) ∧
        needed = min span.width (UInt64.size - 1) ∧ available = cut.length - span.start ∧
        (bytes.length < UInt64.size → available < needed)) ∧
      ∀ more, more ≠ [] → ∀ reported, reported = none ∨ reported = some (bytes.length + more.length) →
        f.decodeReported reported (bytes ++ more) =
          .error (.trailingBytes bytes.length (bytes.length + more.length)) := by
  have hframed := framed_of_decode hread
  obtain ⟨⟨hx, hy⟩, -⟩ := decode_eq_ok_iff.mp hread
  constructor
  · intro cut hbegins hne reported hreported
    have hcut : cut = bytes.take cut.length := List.prefix_iff_eq_take.mp hbegins
    have hlt : cut.length < bytes.length :=
      Nat.lt_of_le_of_ne hbegins.length_le fun h => hne (hbegins.eq_of_length h)
    obtain ⟨span, hspan, hholds⟩ := exists_span (hframed.length ▸ hlt)
    have hrefused := decode_take hframed hx hy hlt hspan hholds
    rw [← hcut] at hrefused
    refine ⟨span, hspan, hholds, _, _, ?_, rfl, rfl, ?_⟩
    · rw [decodeReported_of_length hreported, hrefused]
    · intro hsize
      obtain ⟨hstart, hstop⟩ := hholds
      exact Nat.lt_min.mpr ⟨by omega, by omega⟩
  · intro more hmore reported hreported
    rw [← List.length_append] at hreported
    rw [decodeReported_of_length hreported, decode_append hframed hx hy hmore]

/-- A buffer of two sequences is cut in the middle of its last coordinate, and goes on by one byte. -/
theorem cut_and_continued_pair :
    let p : Path := ⟨7, [⟨0x3ff0000000000000⟩], [⟨0x7ff800000000beef⟩]⟩
    let bytes := pathBytes .one p
    ({ limit := 1 } : Format).decode bytes = .ok p ∧
      (∃ span ∈ layout 1 1, span.Holds 35 ∧ ∃ needed available,
        ({ limit := 1 } : Format).decodeReported none (bytes.take 35) =
          .error (.truncated span.field needed available) ∧ available < needed) ∧
      ({ limit := 1 } : Format).decodeReported (some 41) (bytes ++ [0]) = .error (.trailingBytes 40 41) := by
  intro p bytes
  have hread : ({ limit := 1 } : Format).decode bytes = .ok p := decode_eq_ok_iff.mpr ⟨by decide, rfl⟩
  obtain ⟨hcut, hmore⟩ := cut_and_continued_buffers _ bytes p hread
  have hne : bytes.take 35 ≠ bytes := fun h => absurd (congrArg List.length h) (by decide)
  obtain ⟨span, hspan, hholds, needed, available, hrefused, -, -, hfewer⟩ :=
    hcut (bytes.take 35) (List.take_prefix 35 bytes) hne none (.inl rfl)
  exact ⟨hread, ⟨span, hspan, hholds, needed, available, hrefused, hfewer (by decide)⟩,
    hmore [0] (by decide) _ (.inr rfl)⟩

end Format

/-! ## Counts written over -/

/-- The bytes with a count written over them at an offset. -/
def overwriteCount (bytes : List UInt8) (offset : Nat) (count : UInt64) : List UInt8 :=
  bytes.take offset ++ Word.toBytes 8 count.toNat ++ bytes.drop (offset + 8)

section Overwrite

variable {bytes : List UInt8} {offset : Nat} (hroom : offset + 8 ≤ bytes.length) (count : UInt64)
include hroom

theorem length_overwriteCount : (overwriteCount bytes offset count).length = bytes.length := by
  simp only [overwriteCount, List.length_append, List.length_take, List.length_drop, Word.length_toBytes]
  omega

/-- The count that is written is the count that stands there. -/
theorem wordAt_overwriteCount : wordAt (overwriteCount bytes offset count) offset 8 = count.toNat := by
  have hfront : (bytes.take offset).length = offset := List.length_take_of_le (by omega)
  rw [← ofBytes_take_drop, overwriteCount, List.append_assoc, List.drop_left' hfront,
    List.take_left' (Word.length_toBytes 8 count.toNat), Word.ofBytes_toBytes]
  exact Nat.mod_eq_of_lt count.toNat_lt

/-- The numbers before and behind it are left alone. -/
theorem wordAt_overwriteCount_of_disjoint {other width : Nat} (h : other + width ≤ offset ∨ offset + 8 ≤ other) :
    wordAt (overwriteCount bytes offset count) other width = wordAt bytes other width := by
  have hfront : (bytes.take offset).length = offset := List.length_take_of_le (by omega)
  rcases h with hbefore | hbehind
  · rw [← wordAt_take hbefore, overwriteCount, List.append_assoc, List.take_left' hfront, wordAt_take hbefore]
  · have hwritten : (bytes.take offset ++ Word.toBytes 8 count.toNat).length = offset + 8 := by
      rw [List.length_append, hfront, Word.length_toBytes]
    rw [← ofBytes_take_drop, ← ofBytes_take_drop, overwriteCount, List.drop_append, hwritten,
      List.drop_eq_nil_of_le (hwritten ▸ hbehind), List.nil_append, List.drop_drop, Nat.add_sub_cancel' hbehind]

end Overwrite

namespace Format

variable {f : Format} {bytes : List UInt8} {nx ny : Nat}

/-- A buffer that only the y count does not fit is refused: for the limit, for want of y values, or for what stands
behind them. -/
theorem decode_of_yCount_ne {v : Nat} (hversion : wordAt bytes 0 4 = 1) (hxCount : wordAt bytes 8 8 = nx)
    (hyCount : wordAt bytes (16 + 8 * nx) 8 = v) (hlength : bytes.length = 24 + 8 * (nx + ny))
    (hx : nx ≤ f.limit.toNat) (hv : v ≠ ny) :
    f.decode bytes = .error
      (if f.limit.toNat < v then .tooManyElements .y v f.limit.toNat
        else if ny < v then .truncated (.values .y) (min (8 * v) (UInt64.size - 1)) (8 * ny)
        else .trailingBytes (24 + 8 * (nx + v)) bytes.length) := by
  have hleft : bytes.length - 24 - 8 * nx = 8 * ny := by omega
  rw [decode_eq_verdict f none]
  simp only [checks, List.tail_cons, hversion, hxCount, hyCount, hleft]
  split
  · next hover =>
    refine verdict_of_fails [_, _, _, _, _, _, _] ?_
    simp only [clear_cons, clear_nil, and_true, decide_eq_false_iff_not, decide_eq_true_eq]
    omega
  · next hover =>
    split
    · next hlarge =>
      refine verdict_of_fails [_, _, _, _, _, _, _, _] ?_
      simp only [clear_cons, clear_nil, and_true, decide_eq_false_iff_not, decide_eq_true_eq]
      omega
    · next hlarge =>
      refine verdict_of_fails [_, _, _, _, _, _, _, _, _] ?_
      simp only [clear_cons, clear_nil, and_true, decide_eq_false_iff_not, decide_eq_true_eq]
      omega

/-- With another x count, a buffer is framed exactly if the word behind so many coordinates makes up for it. -/
theorem framed_overwrite_xCount_iff (hframed : Framed bytes nx ny) (v : UInt64) {nx' ny' : Nat} :
    Framed (overwriteCount bytes 8 v) nx' ny' ↔
      nx' = v.toNat ∧ ny' = wordAt bytes (16 + 8 * v.toNat) 8 ∧ v.toNat + ny' = nx + ny := by
  obtain ⟨hversion, -, -, hlength⟩ := hframed
  have hroom : 8 + 8 ≤ bytes.length := by omega
  have hversion' : wordAt (overwriteCount bytes 8 v) 0 4 = 1 := by
    rw [wordAt_overwriteCount_of_disjoint hroom v (.inl (by omega)), hversion]
  have hxCount' : wordAt (overwriteCount bytes 8 v) 8 8 = v.toNat := wordAt_overwriteCount hroom v
  have hyCount' : wordAt (overwriteCount bytes 8 v) (16 + 8 * v.toNat) 8 = wordAt bytes (16 + 8 * v.toNat) 8 :=
    wordAt_overwriteCount_of_disjoint hroom v (.inr (by omega))
  have hlength' : (overwriteCount bytes 8 v).length = 24 + 8 * (nx + ny) :=
    (length_overwriteCount hroom v).trans hlength
  constructor
  · rintro ⟨-, hx, hy, hl⟩
    obtain rfl : nx' = v.toNat := hx.symm.trans hxCount'
    exact ⟨rfl, hy.symm.trans hyCount', by omega⟩
  · rintro ⟨rfl, rfl, hsum⟩
    exact ⟨hversion', hxCount', hyCount', by omega⟩

/-- **Counts written over.** Take the buffer of a path within the limit, and put any 64-bit number in the place of one of
its counts. A wrong y count is refused: for the limit if it is above it, else for want of y values if it is too large,
else for the bytes behind the last y value. Another x count makes the buffer readable exactly if it is within the limit
and accounts, together with the word that now stands in the place of the y count, for all the coordinates, that word
being within the limit too. So an x count above the number of all coordinates is always refused. -/
theorem overwritten_counts (f : Format) (p : Path) (bytes : List UInt8) (hwritten : f.encode p = .ok bytes) :
    let nx := p.x.length
    let ny := p.y.length
    (∀ v : UInt64, v.toNat ≠ ny →
      f.decode (overwriteCount bytes (16 + 8 * nx) v) = .error
        (if f.limit.toNat < v.toNat then .tooManyElements .y v.toNat f.limit.toNat
          else if ny < v.toNat then .truncated (.values .y) (min (8 * v.toNat) (UInt64.size - 1)) (8 * ny)
          else .trailingBytes (24 + 8 * (nx + v.toNat)) bytes.length)) ∧
      (∀ v : UInt64, (∃ q, f.decode (overwriteCount bytes 8 v) = .ok q) ↔
        v.toNat ≤ f.limit.toNat ∧ v.toNat ≤ nx + ny ∧
          wordAt bytes (16 + 8 * v.toNat) 8 = nx + ny - v.toNat ∧
          wordAt bytes (16 + 8 * v.toNat) 8 ≤ f.limit.toNat) ∧
      ∀ v : UInt64, nx + ny < v.toNat → ∃ fault, f.decode (overwriteCount bytes 8 v) = .error fault := by
  intro nx ny
  have hread := decode_iff_encode.mpr hwritten
  have hframed : Framed bytes nx ny := framed_of_decode hread
  obtain ⟨⟨hx, -⟩, -⟩ := encode_eq_ok_iff.mp hwritten
  have hlength := hframed.length
  have hx_iff : ∀ v : UInt64, (∃ q, f.decode (overwriteCount bytes 8 v) = .ok q) ↔
      v.toNat ≤ f.limit.toNat ∧ v.toNat ≤ nx + ny ∧
        wordAt bytes (16 + 8 * v.toNat) 8 = nx + ny - v.toNat ∧
        wordAt bytes (16 + 8 * v.toNat) 8 ≤ f.limit.toNat := by
    intro v
    simp only [exists_decode_iff_framed, framed_overwrite_xCount_iff hframed]
    constructor
    · rintro ⟨_, _, ⟨rfl, rfl, hsum⟩, hv, hword⟩
      exact ⟨hv, by omega, by omega, hword⟩
    · rintro ⟨hv, hle, hword, hlimit⟩
      exact ⟨_, _, ⟨rfl, rfl, by omega⟩, hv, hlimit⟩
  refine ⟨?_, hx_iff, ?_⟩
  · intro v hv
    have hroom : 16 + 8 * nx + 8 ≤ bytes.length := by omega
    rw [← length_overwriteCount hroom v]
    refine decode_of_yCount_ne ?_ ?_ (wordAt_overwriteCount hroom v) ?_ hx hv
    · rw [wordAt_overwriteCount_of_disjoint hroom v (.inl (by omega)), hframed.version]
    · rw [wordAt_overwriteCount_of_disjoint hroom v (.inl (by omega)), hframed.xCount]
    · rw [length_overwriteCount hroom v, hlength]
  · intro v hv
    cases hdecode : f.decode (overwriteCount bytes 8 v) with
    | error fault => exact ⟨fault, rfl⟩
    | ok q =>
      obtain ⟨-, hle, -, -⟩ := (hx_iff v).mp ⟨q, hdecode⟩
      omega

/-- A first coordinate whose bits are the number two passes for the y count once the x count is written over with zero;
the last coordinate does not pass for the y count zero that an x count of two calls for. -/
theorem overwritten_counts_misread :
    let f : Format := { limit := 2 }
    let bytes := pathBytes .one ⟨9, [⟨2⟩], [⟨7⟩]⟩
    f.encode ⟨9, [⟨2⟩], [⟨7⟩]⟩ = .ok bytes ∧
      (∃ q, f.decode (overwriteCount bytes 8 0) = .ok q) ∧
      (¬ ∃ q, f.decode (overwriteCount bytes 8 2) = .ok q) ∧
      (∃ fault, f.decode (overwriteCount bytes 8 0xffffffffffffffff) = .error fault) ∧
      f.decode (overwriteCount bytes 24 3) = .error (.tooManyElements .y 3 2) ∧
      f.decode (overwriteCount bytes 24 2) = .error (.truncated (.values .y) 16 8) ∧
      f.decode (overwriteCount bytes 24 0) = .error (.trailingBytes 32 40) := by
  intro f bytes
  have hwritten : f.encode ⟨9, [⟨2⟩], [⟨7⟩]⟩ = .ok bytes := rfl
  obtain ⟨hy, hx, hfar⟩ := overwritten_counts f _ bytes hwritten
  refine ⟨hwritten, (hx 0).mpr (by decide +kernel), fun h => absurd ((hx 2).mp h) (by decide +kernel), hfar _ (by decide),
    hy 3 (by decide), hy 2 (by decide), hy 0 (by decide)⟩

end Format

end Polypath.Wire
