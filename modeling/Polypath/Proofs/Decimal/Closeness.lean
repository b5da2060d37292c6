import Polypath.Proofs.Decimal.Rounding

/-!
# Closeness of rounded numbers

Two numbers are close when each is at most a given factor times the other, so that factors multiply along a
computation. One rounding stays within the factor `rounding` (`close_nearest`), and it changes nothing at all when the
ratio has a short enough significand (`value_nearest_of_dyadic`). A number that is close enough to a ratio which rounds
to a pattern is rounded to one of the two patterns on either side of it at the most (`nearest_near`).
-/

namespace Polypath.Decimal

/-- Each of two numbers is at most `factor` times the other. -/
structure Close (factor a b : ℚ) : Prop where
  le : a ≤ b * factor
  ge : b ≤ a * factor

namespace Close

variable {s t a b c d : ℚ}

theorem refl (ha : 0 ≤ a) (hs : 1 ≤ s) : Close s a a :=
  ⟨le_mul_of_one_le_right ha hs, le_mul_of_one_le_right ha hs⟩

theorem mono (h : Close s a b) (ha : 0 ≤ a) (hb : 0 ≤ b) (hst : s ≤ t) : Close t a b :=
  ⟨h.le.trans (mul_le_mul_of_nonneg_left hst hb), h.ge.trans (mul_le_mul_of_nonneg_left hst ha)⟩

theorem trans (hab : Close s a b) (hbc : Close t b c) (hs : 0 ≤ s) (ht : 0 ≤ t) : Close (s * t) a c := by
  constructor
  · calc a ≤ b * s := hab.le
      _ ≤ c * t * s := by gcongr; exact hbc.le
      _ = c * (s * t) := by ring
  · calc c ≤ b * t := hbc.ge
      _ ≤ a * s * t := by gcongr; exact hab.ge
      _ = a * (s * t) := by ring

theorem mul (hab : Close s a b) (hcd : Close t c d) (ha : 0 ≤ a) (hb : 0 ≤ b) (hc : 0 ≤ c) (hd : 0 ≤ d) :
    Close (s * t) (a * c) (b * d) := by
  constructor
  · calc a * c ≤ b * s * (d * t) := mul_le_mul hab.le hcd.le hc (ha.trans hab.le)
      _ = b * d * (s * t) := by ring
  · calc b * d ≤ a * s * (c * t) := mul_le_mul hab.ge hcd.ge hd (hb.trans hab.ge)
      _ = a * c * (s * t) := by ring

theorem inv (hab : Close s a b) (ha : 0 < a) (hb : 0 < b) : Close s a⁻¹ b⁻¹ := by
  constructor
  · rw [← div_eq_inv_mul, inv_eq_one_div, div_le_div_iff₀ ha hb, one_mul, mul_comm]
    exact hab.ge
  · rw [← div_eq_inv_mul, inv_eq_one_div, div_le_div_iff₀ hb ha, one_mul, mul_comm]
    exact hab.le

theorem div (hab : Close s a b) (hcd : Close t c d) (ha : 0 ≤ a) (hb : 0 ≤ b) (hc : 0 < c) (hd : 0 < d) :
    Close (s * t) (a / c) (b / d) := by
  rw [div_eq_mul_inv, div_eq_mul_inv]
  exact hab.mul (hcd.inv hc hd) ha hb (inv_nonneg.mpr hc.le) (inv_nonneg.mpr hd.le)

end Close

/-! ## One rounding -/

/-- The factor within which a rounding stays. -/
def rounding : ℚ := 1 + 1 / 2 ^ 53

variable {num den p : Nat}

/-- Above the first scales a rounded number stays within the factor `rounding`. -/
theorem close_nearest (hden : 0 < den) (hnormal : binade < nearest num den)
    (hfinite : nearest num den < Coord.infinity) : Close rounding (num / den) (value (nearest num den)) := by
  obtain ⟨r, hr⟩ : ∃ r, nearest num den = r + 1 := ⟨nearest num den - 1, by omega⟩
  have hhigh := le_midpoint_of_nearest_eq hden hfinite rfl
  have hlow := midpoint_le_of_lt_nearest hden (show r < nearest num den by omega)
  have hunit := le_value_of_binade_le (show binade ≤ r by omega)
  have hunit' := le_value_of_binade_le (show binade ≤ r + 1 by omega)
  rw [hr] at hhigh ⊢
  have hsucc := value_succ r
  unfold midpoint at hhigh hlow
  have hu : (0 : ℚ) < ulp r := ulp_pos r
  unfold rounding
  constructor
  · linarith
  · linarith

/-- A number of at least one is not too small for that. -/
theorem binade_lt_nearest (hone : (1 : ℚ) ≤ num) : binade < nearest num 1 := by
  apply lt_nearest_of_midpoint_lt one_pos (by decide)
  have hsmall : midpoint binade < 1 := by
    have hulp : ulp binade ≤ 2 ^ (-53 : ℤ) := zpow_le_zpow_right₀ one_le_two (by decide)
    have hle := value_add_ulp_le binade
    have hpos := ulp_pos binade
    norm_num at hulp
    unfold midpoint
    linarith
  simpa using hsmall.trans_le hone

/-- A number of at most `10 ^ 308` is not too large for that. -/
theorem nearest_lt_infinity (htop : (num : ℚ) ≤ 10 ^ 308) : nearest num 1 < Coord.infinity := by
  suffices nearest num 1 ≤ Coord.infinity - 1 from this.trans_lt (by decide)
  apply nearest_le_of_lt_midpoint one_pos
  have hlarge : (10 : ℚ) ^ 308 < midpoint (Coord.infinity - 1) := by
    have hpow : (10 : ℚ) ^ 308 < 9007199254740991 * 2 ^ 971 := by
      exact_mod_cast (by decide +kernel : 10 ^ 308 < 9007199254740991 * 2 ^ 971)
    norm_num [midpoint, value, ulp, significand, exponent]
    exact hpow.trans (lt_add_of_pos_right _ (by positivity))
  simpa using htop.trans_lt hlarge

/-- A number with at most 53 binary digits before its zeros is kept as it is. -/
theorem value_nearest_of_dyadic {m s : Nat} (hm : m < 2 ^ 53) (hs : s ≤ 971) :
    value (nearest (m * 2 ^ s) 1) = (m * 2 ^ s : Nat) := by
  rcases m.eq_zero_or_pos with rfl | hpos
  · simp [nearest, value, significand]
  · obtain ⟨q, n, hnearest, hround⟩ := nearest_roundsOn (Nat.mul_pos hpos (Nat.pow_pos two_pos : 0 < 2 ^ s)) one_pos
    have hratio : ((m * 2 ^ s : Nat) : ℚ) / (1 : Nat) = m * 2 ^ s := by push_cast; ring
    rw [hratio] at hround
    have hbound : (m : ℚ) * 2 ^ s < 2 ^ (s + 53) := by
      rw [pow_add, mul_comm]
      have hm : (m : ℚ) < 2 ^ 53 := by exact_mod_cast hm
      gcongr
    -- the scale of the ratio is no coarser than its zeros, so the significand is an integer before it is rounded
    have hscale : q ≤ s := by
      rcases hround.least_scale.eq_or_lt with h | h
      · omega
      · exact scale_le_of_lt (hround.scale_le h) (by exact_mod_cast hbound)
    obtain ⟨d, hd⟩ : ∃ d : Nat, (s : ℤ) = d + q := ⟨(s - q).toNat, by omega⟩
    have hwhole : (m : ℚ) * 2 ^ s = (m * 2 ^ d : Nat) * 2 ^ q := by
      rw [← zpow_natCast, hd, zpow_add₀ two_ne_zero, zpow_natCast]
      push_cast
      ring
    have hunits : n = m * 2 ^ d := (hwhole ▸ hround).eq_of_units
    have hvalue : value ((q + 1074).toNat * binade + n) = m * 2 ^ s := by rw [hround.value_eq, hwhole, hunits]
    have hfinite : (q + 1074).toNat * binade + n ≤ Coord.infinity := by
      rw [← value_strictMono.le_iff_le, hvalue, value_infinity]
      exact hbound.le.trans (pow_le_pow_right₀ one_le_two (by omega))
    rw [hnearest, Nat.min_eq_right hfinite, hvalue]
    push_cast
    rfl

/-! ## Roundings of close numbers -/

/-- A number within `factor` of a ratio that rounds to `p` is rounded to at most two patterns from `p`, if the factor
is too small for a step over two midpoints. -/
theorem nearest_near {x factor : ℚ} (hden : 0 < den) (hp : p < Coord.infinity)
    (hgap : ∀ r ≤ p, midpoint r * factor < midpoint (r + 2)) (hlow : ∀ r < p, midpoint r ≤ x) (hhigh : x ≤ midpoint p)
    (hfactor : 0 ≤ factor) (hclose : Close factor x (num / den)) :
    nearest num den ≤ p + 2 ∧ p ≤ nearest num den + 2 := by
  constructor
  · apply nearest_le_of_lt_midpoint hden
    calc (num : ℚ) / den ≤ x * factor := hclose.ge
      _ ≤ midpoint p * factor := mul_le_mul_of_nonneg_right hhigh hfactor
      _ < midpoint (p + 2) := hgap p le_rfl
  · by_contra hlt
    obtain ⟨r, rfl⟩ : ∃ r, p = r + 3 := ⟨p - 3, by omega⟩
    have hr : midpoint r < num / den := by
      by_contra hle
      have : x < x := calc
        x ≤ num / den * factor := hclose.le
        _ ≤ midpoint r * factor := mul_le_mul_of_nonneg_right (not_lt.mp hle) hfactor
        _ < midpoint (r + 2) := hgap r (by omega)
        _ ≤ x := hlow _ (by omega)
      exact lt_irrefl x this
    have := lt_nearest_of_midpoint_lt hden (by omega) hr
    omega

theorem midpoint_add_two_ulp_le (r : Nat) : midpoint r + 2 * ulp r ≤ midpoint (r + 2) := by
  have hfirst := value_succ r
  have hsecond := value_succ (r + 1)
  have hmono := ulp_mono (show r ≤ r + 1 by omega)
  have hmono' := ulp_mono (show r ≤ r + 2 by omega)
  unfold midpoint
  linarith

/-- Two roundings do not lead over two midpoints. -/
theorem midpoint_mul_rounding_sq_lt (r : Nat) : midpoint r * rounding ^ 2 < midpoint (r + 2) := by
  refine lt_of_lt_of_le ?_ (midpoint_add_two_ulp_le r)
  have hle := value_add_ulp_le r
  have hpos := ulp_pos r
  unfold midpoint rounding
  norm_num
  linarith

/-- Four roundings do not lead over two midpoints among the least patterns. -/
theorem midpoint_mul_lt_of_lt_binade {r : Nat} (hr : r < binade) :
    midpoint r * (1 + 4 / 2 ^ 53) < midpoint (r + 2) := by
  refine lt_of_lt_of_le ?_ (midpoint_add_two_ulp_le r)
  have hle : value r + ulp r ≤ 2 ^ 52 * ulp r := by
    have hs : (significand r : ℚ) + 1 ≤ 2 ^ 52 := by
      rw [significand, if_pos hr]
      exact_mod_cast hr
    rw [value_add_ulp]
    exact mul_le_mul_of_nonneg_right hs (ulp_pos r).le
  have hpos := ulp_pos r
  unfold midpoint
  norm_num
  linarith

end Polypath.Decimal
