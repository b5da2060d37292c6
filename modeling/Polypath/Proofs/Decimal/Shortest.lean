import Mathlib.Data.List.Basic
import Polypath.Decimal.Shortest
import Polypath.Proofs.Decimal.Rounding

/-!
# Seventeen digits are enough

On the decimal grid with seventeen digits the neighbours of a number are less than a unit in the last place apart, so
the nearer one lies between the midpoints around the number and reads back as it (`onGrid_isSome`). Hence `shortest`
always finds a decimal, of at most seventeen digits, and that decimal reads back (`shortest_eq_ofMultiple`).
-/

namespace Polypath.Decimal

/-! ## Powers of ten -/

theorem digitCount_bounds {n : Nat} (hn : 0 < n) : 10 ^ (digitCount n - 1) ≤ n ∧ n < 10 ^ digitCount n := by
  have hpos : 0 < digitCount n := Nat.length_toDigits_pos
  refine ⟨?_, (Nat.length_toDigits_le_iff (by decide) hpos).mp le_rfl⟩
  rcases (Nat.succ_le_of_lt hpos).eq_or_lt with hone | hmore
  · rw [← hone]
    exact hn
  · by_contra hlt
    have hle : digitCount n ≤ digitCount n - 1 :=
      (Nat.length_toDigits_le_iff (by decide) (by omega)).mpr (not_le.mp hlt)
    omega

theorem floorLogTen_bounds {num den : Nat} (hnum : 0 < num) (hden : 0 < den) :
    (10 : ℚ) ^ floorLogTen num den ≤ num / den ∧ (num : ℚ) / den < 10 ^ (floorLogTen num den + 1) := by
  have hnumPos : (0 : ℚ) < num := by exact_mod_cast hnum
  have hdenPos : (0 : ℚ) < den := by exact_mod_cast hden
  unfold floorLogTen
  split_ifs with h
  · obtain ⟨hlow, hhigh⟩ := digitCount_bounds (Nat.div_pos h hden)
    have hpos : 0 < digitCount (num / den) := Nat.length_toDigits_pos
    generalize digitCount (num / den) = d at *
    have hlow : 10 ^ (d - 1) * den ≤ num := (Nat.mul_le_mul_right den hlow).trans (Nat.div_mul_le_self num den)
    have hhigh : num < 10 ^ d * den := (Nat.div_lt_iff_lt_mul hden).mp hhigh
    rw [sub_add_cancel, zpow_natCast, show (d : ℤ) - 1 = (d - 1 : Nat) by omega, zpow_natCast, le_div_iff₀ hdenPos,
      div_lt_iff₀ hdenPos]
    exact ⟨by exact_mod_cast hlow, by exact_mod_cast hhigh⟩
  · -- the ratio is less than one, and its inverse is rounded up
    have hceil : den ≤ (num - 1 + den) / num * num ∧ ((num - 1 + den) / num - 1) * num < den := by
      have hdiv := Nat.div_add_mod (num - 1 + den) num
      have hmod := Nat.mod_lt (num - 1 + den) hnum
      rw [Nat.sub_mul, one_mul, Nat.mul_comm]
      omega
    have htwo : 2 ≤ (num - 1 + den) / num := (Nat.le_div_iff_mul_le hnum).mpr (by omega)
    generalize (num - 1 + den) / num = c at *
    obtain ⟨hlow, hhigh⟩ := digitCount_bounds (show 0 < c - 1 by omega)
    have hpos : 0 < digitCount (c - 1) := Nat.length_toDigits_pos
    generalize digitCount (c - 1) = d at *
    have hlow : 10 ^ (d - 1) * num < den := (Nat.mul_le_mul_right num hlow).trans_lt hceil.2
    have hhigh : den ≤ 10 ^ d * num := hceil.1.trans (Nat.mul_le_mul_right num (by omega))
    rw [show -(d : ℤ) + 1 = -(d - 1 : Nat) by omega, zpow_neg, zpow_neg, zpow_natCast, zpow_natCast,
      le_div_iff₀ hdenPos, div_lt_iff₀ hdenPos, inv_mul_le_iff₀ (by positivity), lt_inv_mul_iff₀ (by positivity)]
    exact ⟨by exact_mod_cast hhigh, by exact_mod_cast hlow⟩

theorem multiple_eq (n : Nat) (k : ℤ) :
    ((n * Nat.pow 10 k.toNat : Nat) : ℚ) / (Nat.pow 10 (-k).toNat : Nat) = n * 10 ^ k := by
  rw [zpow_eq_pow_div_pow, Nat.pow_eq, Nat.pow_eq]
  push_cast
  ring

/-! ## Decimals that read back -/

variable {p n : Nat} {k : ℤ}

theorem readsBack_of_between (hp : p ≤ Coord.infinity) (hbelow : ∀ r, r + 1 = p → midpoint r < n * 10 ^ k)
    (habove : (n : ℚ) * 10 ^ k < midpoint p) : readsBack p n k = true := by
  rw [← multiple_eq] at habove
  simp only [← multiple_eq] at hbelow
  exact decide_eq_true (nearest_eq_of_between (Nat.pow_pos (by decide)) hp hbelow habove)

theorem le_midpoint_of_readsBack (hp : p < Coord.infinity) (h : readsBack p n k = true) :
    (n : ℚ) * 10 ^ k ≤ midpoint p := by
  rw [← multiple_eq]
  exact le_midpoint_of_nearest_eq (Nat.pow_pos (by decide)) hp (of_decide_eq_true h)

theorem midpoint_le_of_readsBack (h : readsBack p n k = true) {r : Nat} (hr : r < p) : midpoint r ≤ n * 10 ^ k := by
  rw [← multiple_eq]
  exact midpoint_le_of_lt_nearest (Nat.pow_pos (by decide)) (hr.trans_eq (of_decide_eq_true h).symm)

theorem nearest_of_readsBack {num den : Nat} (hden : 0 < den) (h : (num : ℚ) / den = n * 10 ^ k)
    (hread : readsBack p n k = true) : nearest num den = p := by
  have hpow : 0 < Nat.pow 10 (-k).toNat := Nat.pow_pos (by decide)
  rw [nearest_congr hden hpow (h.trans (multiple_eq n k).symm)]
  exact of_decide_eq_true hread

/-- Whether a decimal reads back does not depend on how its zeros are written. -/
theorem readsBack_of_eq {m : Nat} {l : ℤ} (h : (m : ℚ) * 10 ^ l = n * 10 ^ k) (hread : readsBack p n k = true) :
    readsBack p m l = true := by
  have hpow : 0 < Nat.pow 10 (-l).toNat := Nat.pow_pos (by decide)
  exact decide_eq_true (nearest_of_readsBack hpow ((multiple_eq m l).trans h) hread)

theorem pos_of_readsBack (hp : 0 < p) (h : readsBack p n k = true) : 0 < n := by
  rcases n.eq_zero_or_pos with rfl | hn
  · have hzero : nearest (0 * Nat.pow 10 k.toNat) (Nat.pow 10 (-k).toNat) = p := of_decide_eq_true h
    rw [Nat.zero_mul, nearest, if_pos rfl] at hzero
    omega
  · exact hn

/-- The greatest multiple of `10 ^ k` that is no larger than a value. -/
def multipleBelow (p : Nat) (k : ℤ) : Nat :=
  numerator p * Nat.pow 10 (-k).toNat / (denominator p * Nat.pow 10 k.toNat)

theorem multipleBelow_bounds (p : Nat) (k : ℤ) :
    multipleBelow p k * 10 ^ k ≤ value p ∧ value p < (multipleBelow p k + 1) * 10 ^ k := by
  have hpow : (0 : ℚ) < 10 ^ k := zpow_pos (by norm_num) k
  have hden : 0 < denominator p * Nat.pow 10 k.toNat := Nat.mul_pos (denominator_pos p) (Nat.pow_pos (by decide))
  have hdenPos : (0 : ℚ) < (denominator p * Nat.pow 10 k.toNat : Nat) := by exact_mod_cast hden
  have hratio : ((numerator p * Nat.pow 10 (-k).toNat : Nat) : ℚ) / (denominator p * Nat.pow 10 k.toNat : Nat) =
      value p / 10 ^ k := by
    rw [zpow_eq_pow_div_pow, ← numerator_div_denominator, Nat.pow_eq, Nat.pow_eq]
    push_cast
    field_simp
  have hlow : (multipleBelow p k : ℚ) ≤ value p / 10 ^ k := by
    rw [← hratio, le_div_iff₀ hdenPos]
    exact_mod_cast Nat.div_mul_le_self _ _
  have hhigh : value p / 10 ^ k < multipleBelow p k + 1 := by
    rw [← hratio, div_lt_iff₀ hdenPos]
    exact_mod_cast (Nat.div_lt_iff_lt_mul hden).mp (Nat.lt_succ_self _)
  exact ⟨(le_div_iff₀ hpow).mp hlow, (div_lt_iff₀ hpow).mp hhigh⟩

theorem multipleBelow_lt {top : ℤ} (h : value p < 10 ^ (top + 1)) (n : Nat) :
    multipleBelow p (top - n) < 10 ^ (n + 1) := by
  have hlt : (multipleBelow p (top - n) : ℚ) * 10 ^ (top - n) < 10 ^ (n + 1) * 10 ^ (top - n) := by
    refine (multipleBelow_bounds _ _).1.trans_lt (h.trans_eq ?_)
    rw [← zpow_natCast, ← zpow_add₀ (by norm_num)]
    congr 1
    push_cast
    omega
  exact_mod_cast lt_of_mul_lt_mul_right hlt (zpow_pos (by norm_num) _).le

/-- On a grid finer than the units around a number, one of its two neighbours reads back. -/
theorem onGrid_isSome (hp : p + 1 ≤ Coord.infinity) (hfine : (10 : ℚ) ^ k < ulp p) :
    (onGrid (p + 1) k).isSome = true := by
  obtain ⟨hlow, hhigh⟩ := multipleBelow_bounds (p + 1) k
  have hulp := ulp_mono (Nat.le_succ p)
  have hsucc := value_succ p
  have hread : readsBack (p + 1) (multipleBelow (p + 1) k) k = true ∨
      readsBack (p + 1) (multipleBelow (p + 1) k + 1) k = true := by
    rcases le_or_gt (value (p + 1) - multipleBelow (p + 1) k * 10 ^ k) (10 ^ k / 2) with hnear | hfar
    · left
      apply readsBack_of_between hp
      · intro r hr
        obtain rfl : r = p := by omega
        unfold midpoint
        linarith
      · exact hlow.trans_lt (value_lt_midpoint _)
    · right
      apply readsBack_of_between hp
      · intro r hr
        push_cast
        exact (midpoint_lt_value (by omega)).trans hhigh
      · unfold midpoint
        push_cast
        linarith
  unfold onGrid
  simp only
  rw [← multipleBelow]
  rcases hread with h | h <;> rw [h]
  · cases readsBack (p + 1) (multipleBelow (p + 1) k + 1) k <;> rfl
  · cases readsBack (p + 1) (multipleBelow (p + 1) k) k <;> rfl

theorem onGrid_eq_some (h : onGrid p k = some n) :
    readsBack p n k = true ∧ (n = multipleBelow p k ∨ n = multipleBelow p k + 1) := by
  unfold onGrid at h
  simp only at h
  rw [← multipleBelow] at h
  split at h
  next hlow hhigh =>
    obtain rfl := Option.some.inj h
    unfold roundDiv
    simp only
    rw [← multipleBelow]
    split
    · exact ⟨hlow, .inl rfl⟩
    · exact ⟨hhigh, .inr rfl⟩
  next hlow _ =>
    obtain rfl := Option.some.inj h
    exact ⟨hlow, .inl rfl⟩
  next _ hhigh =>
    obtain rfl := Option.some.inj h
    exact ⟨hhigh, .inr rfl⟩
  next => cases h

/-- The shortest decimal of a positive finite number is a multiple that reads back, and it has at most seventeen
digits. -/
theorem shortest_eq_ofMultiple (hp : 0 < p) (hfinite : p < Coord.infinity) :
    ∃ n k, shortest p = ofMultiple n k ∧ readsBack p n k = true ∧ n ≤ 10 ^ 17 := by
  obtain ⟨r, rfl⟩ : ∃ r, p = r + 1 := ⟨p - 1, by omega⟩
  obtain ⟨hlow, hhigh⟩ := floorLogTen_bounds (numerator_pos hp) (denominator_pos (r + 1))
  rw [numerator_div_denominator] at hlow hhigh
  unfold shortest
  simp only
  generalize floorLogTen (numerator (r + 1)) (denominator (r + 1)) = top at *
  have hfine : (10 : ℚ) ^ (top - (16 : Nat)) < ulp r := by
    rw [zpow_sub₀ (by norm_num), zpow_natCast, div_lt_iff₀ (by positivity)]
    have hle := value_add_ulp_le r
    have hpos := ulp_pos r
    rw [value_succ] at hlow
    norm_num
    linarith
  have hfound := onGrid_isSome (show r + 1 ≤ Coord.infinity by omega) hfine
  generalize hsome : (List.range 17).findSome? _ = found
  cases found with
  | none =>
    rw [List.findSome?_eq_none_iff] at hsome
    have hnone := hsome 16 (by decide)
    rw [Option.map_eq_none_iff] at hnone
    rw [hnone] at hfound
    cases hfound
  | some figures =>
    obtain ⟨n, hn, hmap⟩ := List.exists_of_findSome?_eq_some hsome
    obtain ⟨multiple, hgrid, rfl⟩ := Option.map_eq_some_iff.mp hmap
    obtain ⟨hread, hnear⟩ := onGrid_eq_some hgrid
    refine ⟨multiple, top - n, rfl, hread, ?_⟩
    have hpow : 10 ^ (n + 1) ≤ 10 ^ 17 := Nat.pow_le_pow_right (by decide) (List.mem_range.mp hn)
    have hbelow := multipleBelow_lt hhigh n
    omega

end Polypath.Decimal
