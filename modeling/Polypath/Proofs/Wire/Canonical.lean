import Polypath.Proofs.Wire.Readers

/-!
# Buffers and paths correspond

A format writes exactly the paths within its limit (`encode_eq_ok_iff`) and reads exactly the buffers of such paths
(`decode_eq_ok_iff`). Three theorems are read off these two laws:

* **Round trip** (`buffer_round_trip`): what is written under one limit is read back bit for bit under every limit that
  the path respects, in particular under the limit it was written with.
* **Canonical form** (`buffer_canonical`): a buffer that is read is what its path is written as, so the buffers that are
  read are the written ones and no path has two of them.
* **Equality** (`bitwise_equality_is_buffer_equality`): two paths are the same bit for bit exactly when they are written
  as the same bytes.
-/

namespace Polypath

/-- Both sequences respect an element limit. -/
def Path.Within (p : Path) (limit : UInt64) : Prop :=
  p.x.length ≤ limit.toNat ∧ p.y.length ≤ limit.toNat

instance (p : Path) (limit : UInt64) : Decidable (p.Within limit) :=
  inferInstanceAs (Decidable (_ ∧ _))

/-- The first axis whose sequence is too long, if one is. -/
def Path.longAxis (p : Path) (limit : UInt64) : Axis :=
  if p.x.length ≤ limit.toNat then .y else .x

end Polypath

namespace Polypath.Wire

open Outcome

/-- There is one revision, so a buffer's own revision is the one that is written. -/
instance : Subsingleton Revision := ⟨fun a b => by cases a; cases b; rfl⟩

namespace Format

/-! ## Acceptance -/

/-- A path is written exactly when it respects the limit, and then as its buffer. -/
theorem encode_eq_ok_iff {f : Format} {p : Path} {bytes : List UInt8} :
    f.encode p = .ok bytes ↔ p.Within f.limit ∧ bytes = pathBytes f.revision p := by
  simp only [encode, bind_eq_ok_iff, checkLimit_eq_ok_iff, pure_eq_ok, Except.ok.injEq, Path.Within]
  constructor
  · rintro ⟨_, hx, _, hy, rfl⟩
    exact ⟨⟨hx, hy⟩, rfl⟩
  · rintro ⟨⟨hx, hy⟩, rfl⟩
    exact ⟨(), hx, (), hy, rfl⟩

/-- A path that does not respect the limit is refused for its first sequence that is too long. -/
theorem encode_of_not_within {f : Format} {p : Path} (hp : ¬ p.Within f.limit) :
    f.encode p = .error
      (.tooManyElements (p.longAxis f.limit) (p.coords (p.longAxis f.limit)).length f.limit.toNat) := by
  by_cases hx : p.x.length ≤ f.limit.toNat
  · have hy : ¬ p.y.length ≤ f.limit.toNat := fun hy => hp ⟨hx, hy⟩
    simp [encode, checkLimit, Path.longAxis, Path.coords, hx, hy]
  · simp [encode, checkLimit, Path.longAxis, Path.coords, hx]

/-- A buffer is read as a path exactly when the path respects the limit and the buffer is the path's. -/
theorem decode_eq_ok_iff {f : Format} {bytes : List UInt8} {p : Path} :
    f.decode bytes = .ok p ↔ p.Within f.limit ∧ bytes = pathBytes f.revision p := by
  simp only [decode, bind_eq_ok_iff, Prod.exists, takeIdentity_eq_ok_iff, takeSequence_eq_ok_iff, guard_eq_ok_iff,
    List.isEmpty_iff, pure_eq_ok, Except.ok.injEq]
  constructor
  · rintro ⟨r, id, _, rfl, x, _, ⟨hx, rfl⟩, y, _, ⟨hy, rfl⟩, rfl, rfl⟩
    refine ⟨⟨hx, hy⟩, ?_⟩
    simp [pathBytes, Subsingleton.elim r f.revision]
  · rintro ⟨⟨hx, hy⟩, rfl⟩
    refine ⟨f.revision, p.id, sequenceBytes p.x ++ sequenceBytes p.y, ?_, p.x, sequenceBytes p.y, ⟨hx, rfl⟩, p.y, [],
      ⟨hy, (List.append_nil _).symm⟩, rfl, rfl⟩
    simp [pathBytes]

/-- A format reads a path from exactly the buffer that it writes for it. -/
theorem decode_iff_encode {f : Format} {bytes : List UInt8} {p : Path} :
    f.decode bytes = .ok p ↔ f.encode p = .ok bytes := by
  rw [decode_eq_ok_iff, encode_eq_ok_iff]

/-- A reported length has to be the buffer's; nothing else depends on it. -/
theorem decodeReported_eq_ok_iff {f : Format} {reported : Option Nat} {bytes : List UInt8} {p : Path} :
    f.decodeReported reported bytes = .ok p ↔ (∀ n ∈ reported, n = bytes.length) ∧ f.decode bytes = .ok p := by
  rw [decodeReported_eq, bind_eq_ok_iff]
  simp only [checkReported_eq_ok_iff, exists_const]

/-! ## Round trip -/

/-- **Round trip.** A path is written exactly when it respects the format's limit. Whatever limit it was written with,
it is read back under every limit it respects, whether its length is reported or not; so a format reads all it writes. -/
theorem buffer_round_trip (f : Format) (p : Path) :
    ((∃ bytes, f.encode p = .ok bytes) ↔ p.x.length ≤ f.limit.toNat ∧ p.y.length ≤ f.limit.toNat) ∧
      ∀ bytes, f.encode p = .ok bytes → ∀ reported, reported = none ∨ reported = some bytes.length →
        (∀ g : Format, p.x.length ≤ g.limit.toNat → p.y.length ≤ g.limit.toNat →
          g.decodeReported reported bytes = .ok p) ∧
        f.decodeReported reported bytes = .ok p := by
  refine ⟨⟨?_, ?_⟩, ?_⟩
  · rintro ⟨bytes, h⟩
    exact (encode_eq_ok_iff.mp h).1
  · intro hwithin
    exact ⟨_, encode_eq_ok_iff.mpr ⟨hwithin, rfl⟩⟩
  · intro bytes h reported hreported
    obtain ⟨hwithin, rfl⟩ := encode_eq_ok_iff.mp h
    have hlength : ∀ n ∈ reported, n = (pathBytes f.revision p).length := by
      rcases hreported with rfl | rfl
      · simp
      · simp
    have hread : ∀ g : Format, p.Within g.limit → g.decodeReported reported (pathBytes f.revision p) = .ok p := by
      intro g hg
      rw [decodeReported_eq_ok_iff, decode_eq_ok_iff, Subsingleton.elim g.revision f.revision]
      exact ⟨hlength, hg, rfl⟩
    exact ⟨fun g hx hy => hread g ⟨hx, hy⟩, hread f hwithin⟩

/-- The payload of a NaN, the sign of a zero and sequences of different lengths survive, from a limit they just meet to
a larger one. -/
theorem buffer_round_trip_special :
    let p : Path := ⟨7, [⟨0x7ff800000000beef⟩, ⟨0x8000000000000000⟩], [⟨0xfff0000000000000⟩]⟩
    ∃ bytes, ({ limit := 2 } : Format).encode p = .ok bytes ∧
      ({ limit := 5 } : Format).decodeReported (some bytes.length) bytes = .ok p := by
  obtain ⟨bytes, h⟩ := (buffer_round_trip { limit := 2 }
    ⟨7, [⟨0x7ff800000000beef⟩, ⟨0x8000000000000000⟩], [⟨0xfff0000000000000⟩]⟩).1.mpr (by decide)
  exact ⟨bytes, h, ((buffer_round_trip _ _).2 bytes h _ (.inr rfl)).1 _ (by decide) (by decide)⟩

/-! ## Canonical form -/

/-- **Canonical form.** A buffer that is read under a limit is exactly what its path is written as under that limit. So
a buffer is accepted exactly when it is the writing of some path within the limit, and two buffers that are read as one
path are one buffer, whatever the limits. -/
theorem buffer_canonical (f : Format) (bytes : List UInt8) :
    (∀ reported p, f.decodeReported reported bytes = .ok p → f.encode p = .ok bytes) ∧
      (∀ reported, (∃ p, f.decodeReported reported bytes = .ok p) ↔
        (reported = none ∨ reported = some bytes.length) ∧
          ∃ p : Path, p.x.length ≤ f.limit.toNat ∧ p.y.length ≤ f.limit.toNat ∧
            ∃ g : Format, g.encode p = .ok bytes) ∧
      ∀ (g : Format) (other : List UInt8) (reported reported' : Option Nat) (p : Path),
        f.decodeReported reported bytes = .ok p → g.decodeReported reported' other = .ok p → other = bytes := by
  refine ⟨?_, ?_, ?_⟩
  · intro reported p h
    obtain ⟨-, hread⟩ := decodeReported_eq_ok_iff.mp h
    exact encode_eq_ok_iff.mpr (decode_eq_ok_iff.mp hread)
  · intro reported
    have hreported : (∀ n ∈ reported, n = bytes.length) ↔ reported = none ∨ reported = some bytes.length := by
      cases reported <;> simp
    constructor
    · rintro ⟨p, h⟩
      obtain ⟨hlength, hread⟩ := decodeReported_eq_ok_iff.mp h
      obtain ⟨hwithin, hbytes⟩ := decode_eq_ok_iff.mp hread
      exact ⟨hreported.mp hlength, p, hwithin.1, hwithin.2, f, encode_eq_ok_iff.mpr ⟨hwithin, hbytes⟩⟩
    · rintro ⟨hlength, p, hx, hy, g, hwritten⟩
      obtain ⟨-, hbytes⟩ := encode_eq_ok_iff.mp hwritten
      rw [Subsingleton.elim g.revision f.revision] at hbytes
      exact ⟨p, decodeReported_eq_ok_iff.mpr ⟨hreported.mpr hlength, decode_eq_ok_iff.mpr ⟨⟨hx, hy⟩, hbytes⟩⟩⟩
  · intro g other reported reported' p hf hg
    obtain ⟨-, hbytes⟩ := decode_eq_ok_iff.mp (decodeReported_eq_ok_iff.mp hf).2
    obtain ⟨-, hother⟩ := decode_eq_ok_iff.mp (decodeReported_eq_ok_iff.mp hg).2
    rw [hother, hbytes, Subsingleton.elim g.revision f.revision]

/-- A buffer with a NaN and a negative zero on one axis and one coordinate on the other is what its path is written as,
a larger limit accepts it with no length or its own, and no other buffer is read as its path. -/
theorem buffer_canonical_of_coordinates :
    let p : Path := ⟨9, [⟨0x7ff8000000000001⟩, ⟨0x8000000000000000⟩], [⟨0x3ff8000000000000⟩]⟩
    let bytes : List UInt8 := [1, 0, 0, 0, 9, 0, 0, 0, 2, 0, 0, 0, 0, 0, 0, 0, 1, 0, 0, 0, 0, 0, 248, 127,
      0, 0, 0, 0, 0, 0, 0, 128, 1, 0, 0, 0, 0, 0, 0, 0, 0, 0, 0, 0, 0, 0, 248, 63]
    ({ limit := 2 } : Format).decodeReported (some 48) bytes = .ok p ∧
      ({ limit := 2 } : Format).encode p = .ok bytes ∧
      (∀ reported, (∃ q, ({ limit := 5 } : Format).decodeReported reported bytes = .ok q) ↔
        reported = none ∨ reported = some 48) ∧
      ∀ (g : Format) (other : List UInt8) (reported : Option Nat), g.decodeReported reported other = .ok p →
        other = bytes := by
  intro p bytes
  have hread : ({ limit := 2 } : Format).decodeReported (some 48) bytes = .ok p := by rfl
  have hwritten := (buffer_canonical { limit := 2 } bytes).1 _ p hread
  refine ⟨hread, hwritten, ?_, ?_⟩
  · intro reported
    rw [(buffer_canonical { limit := 5 } bytes).2.1 reported]
    exact and_iff_left ⟨p, by decide, by decide, _, hwritten⟩
  · intro g other reported hother
    exact (buffer_canonical { limit := 2 } bytes).2.2 g other _ reported p hread hother

/-! ## Equality -/

/-- Two paths within a limit have one buffer only if they are one path: the buffer is read as both. The counts in front
of the sequences keep apart the ways to divide the same words between the axes. -/
theorem pathBytes_inj_of_within {f : Format} {p q : Path} (hp : p.Within f.limit) (hq : q.Within f.limit) :
    pathBytes f.revision p = pathBytes f.revision q ↔ p = q := by
  constructor
  · intro hbytes
    have hreadP : f.decode (pathBytes f.revision p) = .ok p := decode_eq_ok_iff.mpr ⟨hp, rfl⟩
    have hreadQ : f.decode (pathBytes f.revision p) = .ok q := decode_eq_ok_iff.mpr ⟨hq, hbytes⟩
    exact Except.ok.inj (hreadP.symm.trans hreadQ)
  · rintro rfl
    rfl

/-- **Equality bit for bit is equality of buffers.** Two paths within a limit are both written, and they are the same
bit for bit exactly when they are written as the same bytes. So bitwise equality is an equivalence of all paths, those
with a NaN included. -/
theorem bitwise_equality_is_buffer_equality :
    (∀ (f : Format) (p q : Path), p.Within f.limit → q.Within f.limit →
      ∃ bytes other, f.encode p = .ok bytes ∧ f.encode q = .ok other ∧ (p.bitwiseEq q = true ↔ bytes = other)) ∧
    Equivalence fun p q : Path => p.bitwiseEq q = true := by
  constructor
  · intro f p q hp hq
    refine ⟨_, _, encode_eq_ok_iff.mpr ⟨hp, rfl⟩, encode_eq_ok_iff.mpr ⟨hq, rfl⟩, ?_⟩
    rw [Path.bitwiseEq_iff, pathBytes_inj_of_within hp hq]
  · refine ⟨?_, ?_, ?_⟩
    · intro p
      exact Path.bitwiseEq_iff.mpr rfl
    · intro p q hpq
      exact Path.bitwiseEq_iff.mpr (Path.bitwiseEq_iff.mp hpq).symm
    · intro p q r hpq hqr
      exact Path.bitwiseEq_iff.mpr ((Path.bitwiseEq_iff.mp hpq).trans (Path.bitwiseEq_iff.mp hqr))

/-- A NaN is the same as itself, and three words divided in two ways between the axes are not the same path, under a
limit that both paths just meet. -/
theorem bitwise_equality_of_divided_words :
    let nan : Coord := ⟨0x7ff8000000000001⟩
    let p : Path := ⟨7, [nan, ⟨1⟩], [⟨0x8000000000000000⟩]⟩
    let q : Path := ⟨7, [nan], [⟨1⟩, ⟨0x8000000000000000⟩]⟩
    (p.bitwiseEq p = true ∧ p.agrees p = false) ∧ p.bitwiseEq q = false ∧
      ∃ bytes other, ({ limit := 2 } : Format).encode p = .ok bytes ∧ ({ limit := 2 } : Format).encode q = .ok other ∧
        bytes ≠ other := by
  intro nan p q
  obtain ⟨hbuffers, hequivalence⟩ := bitwise_equality_is_buffer_equality
  have hdiffer : p.bitwiseEq q = false := by decide
  obtain ⟨bytes, other, hp, hq, hiff⟩ := hbuffers { limit := 2 } p q (by decide) (by decide)
  refine ⟨⟨hequivalence.refl p, by decide⟩, hdiffer, bytes, other, hp, hq, ?_⟩
  intro hsame
  exact Bool.false_ne_true (hdiffer.symm.trans (hiff.mpr hsame))

end Format

end Polypath.Wire
