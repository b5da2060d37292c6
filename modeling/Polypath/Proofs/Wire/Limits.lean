import Polypath.Proofs.Wire.Canonical

/-!
# Writing and reading under a limit

Writing looks at both lengths before a byte is written; reading meets each length behind all that stands before it.
Still the limit refuses the same paths for the same reason on both sides. The reader of a sequence that was written does
no more than the limit check of the writer (`takeSequence_sequenceBytes`), so reading a buffer under any limit is
writing its path under that limit (`decode_pathBytes`), and the two refusals are one fault (`limits_refuse_alike`).

A larger limit lifts refusals and changes nothing else (`larger_limits_only_admit`). Two runs under two limits are
followed side by side: `Relaxes` relates their outcomes, chaining keeps it (`Relaxes.bind`), and only the limit check
tells the two runs apart (`checkLimit_relaxes`).
-/

namespace Polypath.Wire

open Outcome

/-- A sequence whose length fits into a count is read back behind the limit check alone. -/
theorem takeSequence_sequenceBytes {values : List Coord} (hcount : values.length < 256 ^ countWidth) (limit : UInt64)
    (axis : Axis) (rest : List UInt8) :
    takeSequence limit axis (sequenceBytes values ++ rest) =
      checkLimit limit axis values.length >>= fun _ => .ok (values, rest) := by
  by_cases hlimit : values.length ≤ limit.toNat
  · have hcheck : checkLimit limit axis values.length = .ok () := checkLimit_eq_ok_iff.mpr hlimit
    rw [takeSequence_eq_ok_iff.mpr ⟨hlimit, rfl⟩, hcheck, ok_bind]
  · have hread : takeWord (.count axis) countWidth (sequenceBytes values ++ rest) =
        .ok (values.length, coordBytes values ++ rest) := by
      rw [takeWord_eq_ok_iff, sequenceBytes, List.append_assoc]
      exact ⟨hcount, rfl⟩
    simp only [takeSequence, hread, ok_bind, checkLimit, if_neg hlimit, error_bind]

namespace Format

/-- Reading the buffer of a path under a limit is writing the path under that limit, up to what is given back. -/
theorem decode_pathBytes (f : Format) (r : Revision) {p : Path} (hx : p.x.length < 256 ^ countWidth)
    (hy : p.y.length < 256 ^ countWidth) : f.decode (pathBytes r p) = f.encode p >>= fun _ => .ok p := by
  have hidentity : takeIdentity (pathBytes r p) = .ok (r, p.id, sequenceBytes p.x ++ sequenceBytes p.y) := by
    rw [takeIdentity_eq_ok_iff, pathBytes]
    simp only [List.append_assoc]
  have hlast : ∀ limit, takeSequence limit .y (sequenceBytes p.y) =
      checkLimit limit .y p.y.length >>= fun _ => .ok (p.y, []) := by
    intro limit
    rw [← takeSequence_sequenceBytes hy, List.append_nil]
  unfold decode encode
  rw [hidentity, ok_bind]
  dsimp only
  rw [takeSequence_sequenceBytes hx]
  -- the x check decides on both sides before y is looked at
  cases checkLimit f.limit .x p.x.length with
  | error fault => rfl
  | ok u =>
    simp only [ok_bind, hlast]
    cases checkLimit f.limit .y p.y.length with
    | error fault => rfl
    | ok u => rfl

/-- **Limits refuse alike.** Take the buffer of a path, written under a limit that the path respects, and any other
limit. Either the path is written and the buffer read under that limit, or both are refused with the same fault: the
first axis whose sequence is longer than the limit, the length and the limit. -/
theorem limits_refuse_alike (f g : Format) (p : Path) (hx : p.x.length ≤ g.limit.toNat)
    (hy : p.y.length ≤ g.limit.toNat) :
    ∃ bytes, g.encode p = .ok bytes ∧ ∀ reported, reported = none ∨ reported = some bytes.length →
      (f.encode p = .ok bytes ∧ f.decodeReported reported bytes = .ok p) ∨
      ∃ axis, f.limit.toNat < (p.coords axis).length ∧ (axis = .y → p.x.length ≤ f.limit.toNat) ∧
        f.encode p = .error (.tooManyElements axis (p.coords axis).length f.limit.toNat) ∧
        f.decodeReported reported bytes = .error (.tooManyElements axis (p.coords axis).length f.limit.toNat) := by
  refine ⟨pathBytes g.revision p, encode_eq_ok_iff.mpr ⟨⟨hx, hy⟩, rfl⟩, fun reported hreported => ?_⟩
  have hread := f.decode_pathBytes g.revision (lt_countRange hx) (lt_countRange hy)
  rw [decodeReported_of_length hreported]
  by_cases hwithin : p.Within f.limit
  · left
    have hwritten : f.encode p = .ok (pathBytes g.revision p) :=
      encode_eq_ok_iff.mpr ⟨hwithin, by rw [Subsingleton.elim g.revision f.revision]⟩
    exact ⟨hwritten, by rw [hread, hwritten, ok_bind]⟩
  · right
    have hrefused := encode_of_not_within hwithin
    refine ⟨p.longAxis f.limit, ?_, ?_, hrefused, by rw [hread, hrefused, error_bind]⟩
    · unfold Path.longAxis
      split
      · next hxf => exact Nat.lt_of_not_le fun hyf => hwithin ⟨hxf, hyf⟩
      · next hxf => exact Nat.lt_of_not_le hxf
    · unfold Path.longAxis
      split
      · next hxf => exact fun _ => hxf
      · exact fun hne => by cases hne

/-- Both sequences are too long for the limit, and x is named by the writer and by the reader. -/
theorem limits_refuse_alike_both :
    let p : Path := ⟨3, [⟨0⟩, ⟨1⟩], [⟨2⟩, ⟨3⟩, ⟨4⟩]⟩
    ∃ bytes, ({ limit := 3 } : Format).encode p = .ok bytes ∧
      ({ limit := 1 } : Format).encode p = .error (.tooManyElements .x 2 1) ∧
      ({ limit := 1 } : Format).decodeReported (some bytes.length) bytes = .error (.tooManyElements .x 2 1) := by
  intro p
  obtain ⟨bytes, hwritten, hboth⟩ := limits_refuse_alike { limit := 1 } { limit := 3 } p (by decide) (by decide)
  have hrefused : ({ limit := 1 } : Format).encode p = .error (.tooManyElements .x 2 1) := rfl
  refine ⟨bytes, hwritten, hrefused, ?_⟩
  rcases hboth _ (.inr rfl) with ⟨hok, -⟩ | ⟨axis, -, -, hencode, hdecode⟩
  · rw [hrefused] at hok
    cases hok
  · rw [hdecode, ← Except.error.inj (hrefused.symm.trans hencode)]

end Format

/-! ## Raising the limit -/

section Relaxing

variable {α β : Type}

/-- Refused because a sequence is longer than the limit. -/
def OverLimit (outcome : Except Fault α) : Prop :=
  ∃ axis count limit, outcome = .error (.tooManyElements axis count limit)

/-- The outcome under a larger limit is the one under the smaller limit, unless that was a refusal for the limit. -/
def Relaxes (strict relaxed : Except Fault α) : Prop :=
  OverLimit strict ∨ relaxed = strict

namespace Relaxes

variable {strict relaxed : Except Fault α}

theorem refl (outcome : Except Fault α) : Relaxes outcome outcome := .inr rfl

theorem eq_of_not_overLimit (h : Relaxes strict relaxed) (hstrict : ¬ OverLimit strict) : relaxed = strict :=
  h.resolve_left hstrict

theorem overLimit (h : Relaxes strict relaxed) (hrelaxed : OverLimit relaxed) : OverLimit strict := by
  rcases h with hstrict | rfl
  · exact hstrict
  · exact hrelaxed

/-- Two chains keep step: up to the first refusal for the smaller limit they give the same results. -/
theorem bind {next next' : α → Except Fault β} (h : Relaxes strict relaxed) (hnext : ∀ a, Relaxes (next a) (next' a)) :
    Relaxes (strict >>= next) (relaxed >>= next') := by
  rcases h with ⟨axis, count, limit, rfl⟩ | rfl
  · exact .inl ⟨axis, count, limit, rfl⟩
  · cases relaxed with
    | error fault => exact refl _
    | ok a => exact hnext a

end Relaxes

variable {lower upper : UInt64} (hlimit : lower ≤ upper)
include hlimit

/-- A length that the smaller limit admits is admitted by the larger one. -/
theorem checkLimit_relaxes (axis : Axis) (count : Nat) :
    Relaxes (checkLimit lower axis count) (checkLimit upper axis count) := by
  unfold checkLimit
  by_cases hcount : count ≤ lower.toNat
  · right
    rw [if_pos hcount, if_pos (Nat.le_trans hcount (UInt64.le_iff_toNat_le.mp hlimit))]
  · left
    rw [if_neg hcount]
    exact ⟨_, _, _, rfl⟩

theorem takeSequence_relaxes (axis : Axis) (bytes : List UInt8) :
    Relaxes (takeSequence lower axis bytes) (takeSequence upper axis bytes) := by
  refine (Relaxes.refl _).bind ?_
  rintro ⟨count, rest⟩
  refine (checkLimit_relaxes hlimit axis count).bind ?_
  intro _
  exact .refl _

end Relaxing

namespace Format

section Relaxing

variable {f g : Format} (hlimit : f.limit ≤ g.limit)
include hlimit

theorem decode_relaxes (bytes : List UInt8) : Relaxes (f.decode bytes) (g.decode bytes) := by
  refine (Relaxes.refl _).bind ?_
  rintro ⟨r, id, rest⟩
  refine (takeSequence_relaxes hlimit .x rest).bind ?_
  rintro ⟨x, rest⟩
  refine (takeSequence_relaxes hlimit .y rest).bind ?_
  rintro ⟨y, rest⟩
  exact .refl _

theorem decodeReported_relaxes (reported : Option Nat) (bytes : List UInt8) :
    Relaxes (f.decodeReported reported bytes) (g.decodeReported reported bytes) := by
  rw [decodeReported_eq, decodeReported_eq]
  exact (Relaxes.refl _).bind fun _ => decode_relaxes hlimit bytes

theorem encode_relaxes (p : Path) : Relaxes (f.encode p) (g.encode p) := by
  refine (checkLimit_relaxes hlimit .x p.x.length).bind ?_
  intro _
  refine (checkLimit_relaxes hlimit .y p.y.length).bind ?_
  intro _
  exact .inr (by rw [Subsingleton.elim g.revision f.revision])

end Relaxing

/-- **Larger limits only admit.** Of two limits, what is read or refused under the smaller one for any reason but the
limit is read or refused alike under the larger one, and what the larger one refuses for the limit the smaller one
refuses for the limit. The same holds for writing. -/
theorem larger_limits_only_admit (f g : Format) (hlimit : f.limit ≤ g.limit) :
    (∀ reported bytes,
      (¬ OverLimit (f.decodeReported reported bytes) →
        g.decodeReported reported bytes = f.decodeReported reported bytes) ∧
      (OverLimit (g.decodeReported reported bytes) → OverLimit (f.decodeReported reported bytes))) ∧
    ∀ p, (¬ OverLimit (f.encode p) → g.encode p = f.encode p) ∧ (OverLimit (g.encode p) → OverLimit (f.encode p)) := by
  constructor
  · intro reported bytes
    have hread := decodeReported_relaxes hlimit reported bytes
    exact ⟨hread.eq_of_not_overLimit, hread.overLimit⟩
  · intro p
    have hwrite := encode_relaxes hlimit p
    exact ⟨hwrite.eq_of_not_overLimit, hwrite.overLimit⟩

/-- A buffer that goes on behind its end is refused for that under the larger limit too; a path that the larger limit
does not admit is refused for the smaller one. -/
theorem larger_limits_only_admit_one_three :
    let bytes := pathBytes .one (.empty 9) ++ [0]
    let p : Path := ⟨5, [⟨0⟩, ⟨1⟩, ⟨2⟩, ⟨3⟩], []⟩
    ({ limit := 1 } : Format).decodeReported none bytes = .error (.trailingBytes 24 25) ∧
      ({ limit := 3 } : Format).decodeReported none bytes = .error (.trailingBytes 24 25) ∧
      OverLimit (({ limit := 3 } : Format).encode p) ∧ OverLimit (({ limit := 1 } : Format).encode p) := by
  intro bytes p
  have hstrict : ({ limit := 1 } : Format).decodeReported none bytes = .error (.trailingBytes 24 25) := by rfl
  have hother : ¬ OverLimit (({ limit := 1 } : Format).decodeReported none bytes) := by
    rw [hstrict]
    rintro ⟨axis, count, limit, h⟩
    cases h
  have hrelaxed : OverLimit (({ limit := 3 } : Format).encode p) := ⟨.x, 4, 3, rfl⟩
  obtain ⟨hread, hwrite⟩ := larger_limits_only_admit { limit := 1 } { limit := 3 } (by decide)
  exact ⟨hstrict, ((hread none bytes).1 hother).trans hstrict, hrelaxed, (hwrite p).2 hrelaxed⟩

end Format

end Polypath.Wire
