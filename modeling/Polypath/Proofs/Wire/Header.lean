import Polypath.Proofs.Wire.Canonical
import Polypath.Proofs.Wire.Offsets

/-!
# The header and the whole

The header of a buffer is read by the readers that begin the reading of the whole buffer, and in front of both stands
the choice of a reader by the version tag, which makes no difference (`peekHeader_eq_readHeader`). So a fault of the
header is the fault of the whole (`decode_of_readHeader_error`), and if the whole is read, the header says what its path
is like (`readHeader_of_decode`). By offsets, the header is judged by four checks that look no further than the
sixteenth byte (`readHeader_eq_verdict`), so whatever follows may be cut off or added (`readHeader_take`). The main
statement is `header_agrees_with_whole`.
-/

namespace Polypath.Wire.Format

open Outcome

variable {f : Format} {bytes : List UInt8}

/-- A buffer with a bad header is refused for it, whatever the limit. -/
theorem decode_of_readHeader_error {fault : Fault} (hh : readHeader bytes = .error fault) :
    f.decode bytes = .error fault := by
  unfold readHeader at hh
  unfold decode
  cases hid : takeIdentity bytes with
  | error e =>
    rw [hid, error_bind] at hh
    cases hh
    rfl
  | ok identity =>
    obtain ⟨r, id, rest⟩ := identity
    rw [hid, ok_bind] at hh
    cases hcount : takeWord (.count .x) countWidth rest with
    | error e =>
      simp only [hcount, error_bind] at hh
      cases hh
      simp only [ok_bind, takeSequence, hcount, error_bind]
    | ok count =>
      simp only [hcount, ok_bind] at hh
      cases hh

/-- The header of a buffer that is read tells the id of the path and the length of its first sequence. -/
theorem readHeader_of_decode {p : Path} (hp : f.decode bytes = .ok p) :
    readHeader bytes = .ok ⟨.one, p.id, p.x.length⟩ := by
  obtain ⟨⟨hx, -⟩, rfl⟩ := decode_eq_ok_iff.mp hp
  have hid : takeIdentity (pathBytes f.revision p) = .ok (.one, p.id, sequenceBytes p.x ++ sequenceBytes p.y) := by
    rw [takeIdentity_eq_ok_iff, Subsingleton.elim f.revision .one, pathBytes]
    simp only [List.append_assoc]
  have hcount : takeWord (.count .x) countWidth (sequenceBytes p.x ++ sequenceBytes p.y) =
      .ok (p.x.length, coordBytes p.x ++ sequenceBytes p.y) := by
    rw [takeWord_eq_ok_iff, sequenceBytes, List.append_assoc]
    exact ⟨lt_countRange hx, rfl⟩
  simp only [readHeader, hid, ok_bind, hcount, pure_eq_ok]

/-! ## The header by offsets -/

/-- The reader of the header makes the checks of its three fields and stops behind them. -/
theorem readHeader_eq_verdict (bytes : List UInt8) :
    let n := bytes.length
    let version := wordAt bytes 0 4
    readHeader bytes =
      verdict
        [ ⟨n < 4, .truncated .version 4 n⟩,
          ⟨version ≠ 1, .unsupportedVersion (UInt32.ofNat version)⟩,
          ⟨n < 8, .truncated .id 4 (n - 4)⟩,
          ⟨n < 16, .truncated (.count .x) 8 (n - 8)⟩ ]
        ⟨.one, UInt32.ofNat (wordAt bytes 4 4), wordAt bytes 8 8⟩ := by
  intro n version
  unfold readHeader
  rw [takeIdentity_eq_verdict]
  refine verdict_bind [_, _, _] [_] _ _ ?_
  have hroom : decide (n - 8 < 8) = decide (n < 16) := decide_eq_decide.mpr (by omega)
  rw [← hroom]
  dsimp only
  rw [takeWord_drop (.count .x) (by decide : countWidth < UInt64.size)]
  exact verdict_bind [_] [] _ _ rfl

/-- Only the first sixteen bytes are looked at. -/
theorem readHeader_take (bytes : List UInt8) : readHeader (bytes.take 16) = readHeader bytes := by
  rcases Nat.lt_or_ge bytes.length 16 with hshort | hlong
  · rw [List.take_of_length_le (by omega)]
  · have hlength : (bytes.take 16).length = 16 := List.length_take_of_le hlong
    have h4 : ¬ bytes.length < 4 := by omega
    have h8 : ¬ bytes.length < 8 := by omega
    rw [readHeader_eq_verdict, readHeader_eq_verdict, hlength, wordAt_take (by decide), wordAt_take (by decide),
      wordAt_take (by decide)]
    simp only [verdict_decide, h4, h8, Nat.not_lt.mpr hlong, Nat.reduceLT, if_false]

/-- **The header agrees with the whole.** A buffer that is read, whatever the limit and whether or not its length is
reported, has a header with version one, the id of its path and the length of the first sequence. A buffer whose header
is not read is refused for the same fault, with the same details. And behind the sixteenth byte nothing matters: neither
what is added there, nor what stands there. -/
theorem header_agrees_with_whole (bytes : List UInt8) :
    (∀ (f : Format) (reported : Option Nat) (p : Path), f.decodeReported reported bytes = .ok p →
      ∃ header, peekHeader bytes = .ok header ∧ header.revision.tag = 1 ∧ header.id = p.id ∧
        header.xCount = p.x.length) ∧
      (∀ fault, peekHeader bytes = .error fault → ∀ f : Format, f.decodeReported none bytes = .error fault) ∧
      (16 ≤ bytes.length → ∀ more, peekHeader (bytes ++ more) = peekHeader bytes) ∧
      peekHeader bytes = peekHeader (bytes.take 16) := by
  simp only [peekHeader_eq_readHeader]
  refine ⟨?_, ?_, ?_, (readHeader_take bytes).symm⟩
  · intro f reported p hread
    obtain ⟨-, hp⟩ := decodeReported_eq_ok_iff.mp hread
    exact ⟨_, readHeader_of_decode hp, rfl, rfl, rfl⟩
  · intro fault hfault f
    rw [decodeReported_of_length (.inl rfl), decode_of_readHeader_error hfault]
  · intro hlong more
    rw [← readHeader_take (bytes ++ more), List.take_append_of_le_length hlong, readHeader_take]

/-- A buffer that ends inside its id has no header, and no limit makes it a path; a whole buffer keeps its header when
bytes are added that make it unreadable. -/
theorem header_agrees_with_damaged_whole :
    let short : List UInt8 := [1, 0, 0, 0, 7]
    let whole : List UInt8 := [1, 0, 0, 0, 9, 0, 0, 0] ++ List.replicate 16 0
    (∀ f : Format, f.decodeReported none short = .error (.truncated .id 4 1)) ∧
      ({ limit := 0 } : Format).decodeReported (some 24) whole = .ok (.empty 9) ∧
      (∃ header, peekHeader whole = .ok header ∧ header.revision.tag = 1 ∧ header.id = 9 ∧ header.xCount = 0) ∧
      peekHeader (whole ++ [255]) = peekHeader whole := by
  intro short whole
  have hread : ({ limit := 0 } : Format).decodeReported (some 24) whole = .ok (.empty 9) := by rfl
  refine ⟨?_, hread, ?_, ?_⟩
  · exact (header_agrees_with_whole short).2.1 _ rfl
  · exact (header_agrees_with_whole whole).1 _ _ _ hread
  · exact (header_agrees_with_whole whole).2.2.1 (by decide) [255]

end Polypath.Wire.Format
