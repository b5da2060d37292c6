import Polypath.Store.Handle

/-!
# Raw handles

A word stands for a handle exactly if it is the handle's raw form (`Handle.ofRaw?_eq_some_iff`). So different handles
have different raw forms, and the word zero is none of them; the words that stand for no handle are those whose high
half is zero (`Handle.ofRaw?_eq_none_iff`). Seen as bits, a raw form is put together from two halves by a shift and a
disjunction, and a word is taken apart by a shift and two cuts (`Handle.toRaw_eq_or`, `Handle.ofRaw?_eq_halves`).
-/

namespace Polypath

theorem Generation.ofWord?_eq_some_iff {w : UInt32} {g : Generation} : ofWord? w = some g ↔ w = g.value := by
  obtain ⟨value, hne⟩ := g
  unfold ofWord?
  split
  · simp
  · next hw =>
    have hzero : w = 0 := Classical.not_not.mp hw
    simp [hzero, Ne.symm hne]

theorem Generation.ofWord?_eq_none_iff {w : UInt32} : ofWord? w = none ↔ w = 0 := by
  unfold ofWord?
  split
  · next hw => simp [hw]
  · next hw => simp [Classical.not_not.mp hw]

namespace Handle

variable {h k : Handle} {raw : UInt64}

theorem toNat_toRaw (h : Handle) : h.toRaw.toNat = h.generation.value.toNat * UInt32.size + h.index.toNat := by
  have hg : h.generation.value.toNat < UInt32.size := h.generation.value.toNat_lt
  have hi : h.index.toNat < UInt32.size := h.index.toNat_lt
  unfold toRaw
  apply UInt64.toNat_ofNat_of_lt'
  simp only [UInt32.size, UInt64.size] at *
  omega

/-- A word stands for a handle exactly if it is the handle's raw form. -/
theorem ofRaw?_eq_some_iff : ofRaw? raw = some h ↔ raw = h.toRaw := by
  have hraw : raw.toNat / UInt32.size < UInt32.size := Nat.div_lt_of_lt_mul raw.toNat_lt
  have hmod : raw.toNat % UInt32.size < UInt32.size := Nat.mod_lt _ (by decide)
  have hi : h.index.toNat < UInt32.size := h.index.toNat_lt
  have hparts : ofRaw? raw = some h ↔
      raw.toNat / UInt32.size = h.generation.value.toNat ∧ raw.toNat % UInt32.size = h.index.toNat := by
    unfold ofRaw?
    simp only [Option.map_eq_some_iff, Generation.ofWord?_eq_some_iff, ← UInt32.toNat_inj,
      UInt32.toNat_ofNat_of_lt' hraw]
    constructor
    · rintro ⟨g, hg, rfl⟩
      exact ⟨hg, (UInt32.toNat_ofNat_of_lt' hmod).symm⟩
    · rintro ⟨hg, hindex⟩
      refine ⟨h.generation, hg, ?_⟩
      rw [hindex, UInt32.ofNat_toNat]
  rw [hparts, ← UInt64.toNat_inj, toNat_toRaw]
  simp only [UInt32.size] at hi ⊢
  omega

theorem ofRaw?_toRaw (h : Handle) : ofRaw? h.toRaw = some h := ofRaw?_eq_some_iff.mpr rfl

theorem toRaw_injective : Function.Injective toRaw := fun h k hraw => by
  have hk : some h = some k := by rw [← ofRaw?_toRaw h, hraw, ofRaw?_toRaw k]
  exact Option.some.inj hk

theorem toRaw_ne_invalidRaw (h : Handle) : h.toRaw ≠ invalidRaw := fun hraw => by
  have hnone : ofRaw? h.toRaw = none := by rw [hraw]; decide
  rw [ofRaw?_toRaw] at hnone
  cases hnone

/-- The generation stands in the high half of the raw form and the index in the low half. -/
theorem toRaw_eq_or (h : Handle) : h.toRaw = h.generation.value.toUInt64 <<< 32 ||| h.index.toUInt64 := by
  have hg : h.generation.value.toNat < UInt32.size := h.generation.value.toNat_lt
  have hi : h.index.toNat < UInt32.size := h.index.toNat_lt
  have hshift : (h.generation.value.toUInt64 <<< 32).toNat = UInt32.size * h.generation.value.toNat := by
    rw [UInt64.toNat_shiftLeft, UInt32.toNat_toUInt64, Nat.shiftLeft_eq, Nat.mul_comm]
    exact Nat.mod_eq_of_lt (Nat.mul_lt_mul_of_pos_left hg (by decide))
  apply UInt64.toNat_inj.mp
  rw [toNat_toRaw, UInt64.toNat_or, hshift, UInt32.toNat_toUInt64, Nat.mul_comm]
  exact Nat.two_pow_add_eq_or_of_lt (i := 32) hi _

/-- A word is taken apart into its high half and its low half. -/
theorem ofRaw?_eq_halves (raw : UInt64) :
    ofRaw? raw = (Generation.ofWord? (raw >>> 32).toUInt32).map fun g => ⟨raw.toUInt32, g⟩ := by
  have hhigh : (raw >>> 32).toUInt32 = UInt32.ofNat (raw.toNat / UInt32.size) := by
    apply UInt32.toNat_inj.mp
    rw [UInt64.toNat_toUInt32, UInt64.toNat_shiftRight, Nat.shiftRight_eq_div_pow, UInt32.toNat_ofNat']
    rfl
  have hlow : raw.toUInt32 = UInt32.ofNat (raw.toNat % UInt32.size) := by
    apply UInt32.toNat_inj.mp
    rw [UInt64.toNat_toUInt32, UInt32.toNat_ofNat']
    exact (Nat.mod_mod _ _).symm
  rw [ofRaw?, hhigh, hlow]

theorem halves_of_ofRaw? (hraw : ofRaw? raw = some h) :
    h.generation.value = (raw >>> 32).toUInt32 ∧ h.index = raw.toUInt32 := by
  rw [ofRaw?_eq_halves, Option.map_eq_some_iff] at hraw
  obtain ⟨g, hg, rfl⟩ := hraw
  exact ⟨(Generation.ofWord?_eq_some_iff.mp hg).symm, rfl⟩

/-- The words that stand for no handle are those whose high half is zero. -/
theorem ofRaw?_eq_none_iff : ofRaw? raw = none ↔ raw.toNat < UInt32.size := by
  have hraw : raw.toNat / UInt32.size < UInt32.size := Nat.div_lt_of_lt_mul raw.toNat_lt
  have hzero : UInt32.ofNat (raw.toNat / UInt32.size) = 0 ↔ raw.toNat / UInt32.size = 0 := by
    rw [← UInt32.toNat_inj, UInt32.toNat_ofNat_of_lt' hraw, UInt32.toNat_zero]
  rw [ofRaw?, Option.map_eq_none_iff, Generation.ofWord?_eq_none_iff, hzero]
  exact Nat.div_eq_zero_iff_lt (by decide : 0 < UInt32.size)

/-- The high half of a raw form is not zero. -/
theorem size_le_toRaw (h : Handle) : UInt32.size ≤ h.toRaw.toNat := by
  have hsome : ofRaw? h.toRaw ≠ none := by simp [ofRaw?_toRaw]
  exact Nat.not_lt.mp fun hlt => hsome (ofRaw?_eq_none_iff.mpr hlt)

end Handle

end Polypath
