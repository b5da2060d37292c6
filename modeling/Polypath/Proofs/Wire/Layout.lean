import Polypath.Proofs.Wire.Canonical

/-!
# Where everything stands in a buffer

The writer only appends; an independent reader goes by offsets from the front. Here the buffer of a path is told by
those offsets alone: which number stands in which bytes (`Stands`), for every field and every coordinate (`LaidOut`).
A word keeps its place when bytes follow it and moves by their number when bytes are put in front (`Stands.append`,
`Stands.behind`), so each coordinate of a sequence is found by induction on the coordinates before it
(`stands_coordBytes`). The layout leaves no byte open (`LaidOut.unique`), hence it is not only met by what is written
but says what is written (`written_by_offsets`).
-/

namespace Polypath.Wire

/-! ## Numbers in their places -/

/-- The `width` bytes from an offset on are those of a number, the least significant one first. -/
def Stands (bytes : List UInt8) (offset width n : Nat) : Prop :=
  ∀ k < width, bytes[offset + k]? = some (UInt8.ofNat (n / 256 ^ k))

namespace Stands

variable {bytes other : List UInt8} {offset width n : Nat}

theorem append (hn : Stands bytes offset width n) (more : List UInt8) : Stands (bytes ++ more) offset width n := by
  intro k hk
  obtain ⟨hlt, -⟩ := List.getElem?_eq_some_iff.mp (hn k hk)
  rw [List.getElem?_append_left hlt, hn k hk]

theorem behind (hn : Stands bytes offset width n) {front : List UInt8} {place : Nat}
    (hplace : place = front.length + offset) : Stands (front ++ bytes) place width n := by
  intro k hk
  rw [hplace, Nat.add_assoc, List.getElem?_append_right (Nat.le_add_right _ _), Nat.add_sub_cancel_left, hn k hk]

/-- In the place of one number two buffers do not differ. -/
theorem getElem?_eq (hn : Stands bytes offset width n) (hn' : Stands other offset width n) {i : Nat}
    (hle : offset ≤ i) (hlt : i < offset + width) : bytes[i]? = other[i]? := by
  obtain ⟨k, rfl⟩ := Nat.exists_eq_add_of_le hle
  have hk : k < width := by omega
  rw [hn k hk, hn' k hk]

end Stands

theorem stands_toBytes (width n : Nat) : Stands (Word.toBytes width n) 0 width n := by
  induction width generalizing n with
  | zero =>
    intro k hk
    omega
  | succ width ih =>
    intro k hk
    rw [Nat.zero_add, Word.toBytes]
    cases k with
    | zero => simp
    | succ k =>
      have hrest := ih (n / 256) k (by omega)
      rw [Nat.zero_add, Nat.div_div_eq_div_mul, ← Nat.pow_succ'] at hrest
      rw [List.getElem?_cons_succ, hrest]

/-! ## Sequences -/

section Sequences

variable {values : List Coord} {i : Nat} {c : Coord}

/-- Each coordinate stands behind those before it. -/
theorem stands_coordBytes (hc : values[i]? = some c) : Stands (coordBytes values) (8 * i) 8 c.bits.toNat := by
  induction values generalizing i with
  | nil => cases hc
  | cons d values ih =>
    have hbytes : coordBytes (d :: values) = Word.toBytes 8 d.bits.toNat ++ coordBytes values := rfl
    rw [hbytes]
    cases i with
    | zero =>
      cases hc
      exact (stands_toBytes 8 _).append _
    | succ i =>
      refine (ih hc).behind ?_
      rw [Word.length_toBytes]
      omega

theorem stands_count (values : List Coord) : Stands (sequenceBytes values) 0 8 values.length :=
  (stands_toBytes 8 _).append _

theorem stands_value (hc : values[i]? = some c) : Stands (sequenceBytes values) (8 + 8 * i) 8 c.bits.toNat :=
  (stands_coordBytes hc).behind (by rw [Word.length_toBytes]; rfl)

end Sequences

/-! ## Whole buffers -/

/-- The bytes of a path, field by field: the version tag, the id, and for each axis the count and the bit patterns of the
coordinates. -/
structure LaidOut (p : Path) (bytes : List UInt8) : Prop where
  length : bytes.length = bufferLength p.x.length p.y.length
  version : Stands bytes 0 4 1
  id : Stands bytes 4 4 p.id.toNat
  xCount : Stands bytes 8 8 p.x.length
  xValue : ∀ i c, p.x[i]? = some c → Stands bytes (16 + 8 * i) 8 c.bits.toNat
  yCount : Stands bytes (16 + 8 * p.x.length) 8 p.y.length
  yValue : ∀ j c, p.y[j]? = some c → Stands bytes (24 + 8 * p.x.length + 8 * j) 8 c.bits.toNat

theorem laidOut_pathBytes (r : Revision) (p : Path) : LaidOut p (pathBytes r p) := by
  have htag : Word.toBytes versionWidth r.tag.toNat = Word.toBytes 4 1 := by
    cases r
    rfl
  have hidentity : (Word.toBytes versionWidth r.tag.toNat ++ Word.toBytes idWidth p.id.toNat).length = 8 := by
    simp only [List.length_append, Word.length_toBytes]
    rfl
  -- the x sequence stands behind the tag and the id
  have hx : ∀ {offset width n}, Stands (sequenceBytes p.x) offset width n → ∀ place, place = 8 + offset →
      Stands (pathBytes r p) place width n := by
    intro offset width n hn place hplace
    exact (hn.behind (by rw [hidentity, hplace])).append _
  -- and the y sequence behind the x sequence
  have hy : ∀ {offset width n}, Stands (sequenceBytes p.y) offset width n →
      ∀ place, place = 16 + 8 * p.x.length + offset → Stands (pathBytes r p) place width n := by
    intro offset width n hn place hplace
    refine hn.behind ?_
    rw [List.length_append, hidentity, length_sequenceBytes, hplace, countWidth, coordWidth]
    omega
  refine ⟨length_pathBytes r p, ?_, ?_, ?_, ?_, ?_, ?_⟩
  · rw [pathBytes, htag]
    exact (((stands_toBytes 4 1).append _).append _).append _
  · exact (((stands_toBytes idWidth _).behind (by rw [Word.length_toBytes]; rfl)).append _).append _
  · exact hx (stands_count p.x) 8 (by omega)
  · intro i c hc
    exact hx (stands_value hc) _ (by omega)
  · exact hy (stands_count p.y) _ (by omega)
  · intro j c hc
    exact hy (stands_value hc) _ (by omega)

/-- The layout leaves no byte open. -/
theorem LaidOut.unique {p : Path} {bytes other : List UInt8} (hp : LaidOut p bytes) (hp' : LaidOut p other) :
    bytes = other := by
  apply List.ext_getElem?
  intro i
  have hlength : bytes.length = 24 + 8 * (p.x.length + p.y.length) := hp.length
  have hlength' : other.length = bytes.length := hp'.length.trans hp.length.symm
  by_cases hi : i < bytes.length
  · -- the byte belongs to one of the parts, and in a sequence to one of the coordinates
    rcases Nat.lt_or_ge i 4 with h4 | h4
    · exact hp.version.getElem?_eq hp'.version (Nat.zero_le i) (by omega)
    rcases Nat.lt_or_ge i 8 with h8 | h8
    · exact hp.id.getElem?_eq hp'.id h4 (by omega)
    rcases Nat.lt_or_ge i 16 with h16 | h16
    · exact hp.xCount.getElem?_eq hp'.xCount h8 (by omega)
    rcases Nat.lt_or_ge i (16 + 8 * p.x.length) with hx | hx
    · have hk : (i - 16) / 8 < p.x.length := by omega
      have hc := List.getElem?_eq_getElem hk
      exact (hp.xValue _ _ hc).getElem?_eq (hp'.xValue _ _ hc) (by omega) (by omega)
    rcases Nat.lt_or_ge i (24 + 8 * p.x.length) with hcount | hcount
    · exact hp.yCount.getElem?_eq hp'.yCount hx (by omega)
    · have hk : (i - (24 + 8 * p.x.length)) / 8 < p.y.length := by omega
      have hc := List.getElem?_eq_getElem hk
      exact (hp.yValue _ _ hc).getElem?_eq (hp'.yValue _ _ hc) (by omega) (by omega)
  · rw [List.getElem?_eq_none (by omega), List.getElem?_eq_none (by omega)]

/-- **Where everything stands.** What a format writes for a path within its limit is the one byte string in which every
field and every coordinate stands at its offset: `24 + 8 * (nx + ny)` bytes, the tag `1` at 0, the id at 4, the number
`nx` of x coordinates at 8, the bits of the `i`-th one at `16 + 8 * i`, the number `ny` of y coordinates at
`16 + 8 * nx` and the bits of the `j`-th one at `24 + 8 * nx + 8 * j`, all with the least significant byte first. -/
theorem Format.written_by_offsets (f : Format) (p : Path) (bytes : List UInt8) :
    (f.encode p = .ok bytes ↔ p.Within f.limit ∧ LaidOut p bytes) ∧
      bufferLength p.x.length p.y.length = 24 + 8 * (p.x.length + p.y.length) := by
  refine ⟨?_, rfl⟩
  rw [encode_eq_ok_iff]
  constructor
  · rintro ⟨hwithin, rfl⟩
    exact ⟨hwithin, laidOut_pathBytes f.revision p⟩
  · rintro ⟨hwithin, hlaid⟩
    exact ⟨hwithin, hlaid.unique (laidOut_pathBytes f.revision p)⟩

end Polypath.Wire
