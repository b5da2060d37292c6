import Polypath.Decimal.Numeral
import Polypath.Proofs.Decimal.Closeness
import Polypath.Proofs.Decimal.Shortest

/-!
# Scaling by powers of ten

The value of a numeral is found by scaling a rounded word by a rounded power of ten. If the exact decimal rounds to a
pattern, the scaled number is rounded to one of the two patterns on either side of it at the most (`scale_near`): a
product or a quotient brings two roundings in before the last, and so does a division in two steps, since the error of
the rounded `10 ^ 308` is small against the larger errors of the other factors. Where the word and the power of ten are
not rounded at all the scaled number is the pattern itself (`scale_exact`).
-/

namespace Polypath.Decimal

theorem product_ratio (a b : Nat) :
    ((numerator a * numerator b : Nat) : ℚ) / (denominator a * denominator b : Nat) = value a * value b := by
  rw [← numerator_div_denominator, ← numerator_div_denominator]
  push_cast
  exact (div_mul_div_comm _ _ _ _).symm

theorem quotient_ratio (a b : Nat) :
    ((numerator a * denominator b : Nat) : ℚ) / (denominator a * numerator b : Nat) = value a / value b := by
  rw [← numerator_div_denominator, ← numerator_div_denominator]
  push_cast
  exact (div_div_div_eq _ _ _ _).symm

section Quotient

variable {a b p : Nat}

theorem quotient_le_of_lt_midpoint (hb : 0 < b) (h : value a / value b < midpoint p) : quotient a b ≤ p := by
  rw [← quotient_ratio] at h
  exact nearest_le_of_lt_midpoint (Nat.mul_pos (denominator_pos a) (numerator_pos hb)) h

theorem le_midpoint_quotient (hb : 0 < b) (h : quotient a b < Coord.infinity) :
    value a / value b ≤ midpoint (quotient a b) := by
  rw [← quotient_ratio]
  exact le_midpoint_of_nearest_eq (Nat.mul_pos (denominator_pos a) (numerator_pos hb)) h rfl

theorem midpoint_le_of_lt_quotient (hb : 0 < b) (h : p < quotient a b) : midpoint p ≤ value a / value b := by
  rw [← quotient_ratio]
  exact midpoint_le_of_lt_nearest (Nat.mul_pos (denominator_pos a) (numerator_pos hb)) h

theorem close_quotient (hb : 0 < b) (hnormal : binade < quotient a b) (hfinite : quotient a b < Coord.infinity) :
    Close rounding (value a / value b) (value (quotient a b)) := by
  rw [← quotient_ratio]
  exact close_nearest (Nat.mul_pos (denominator_pos a) (numerator_pos hb)) hnormal hfinite

theorem quotient_roundsOn (ha : 0 < a) (hb : 0 < b) :
    ∃ q m, quotient a b = min Coord.infinity ((q + 1074).toNat * binade + m) ∧ RoundsOn (value a / value b) q m := by
  rw [← quotient_ratio]
  exact nearest_roundsOn (Nat.mul_pos (numerator_pos ha) (denominator_pos b))
    (Nat.mul_pos (denominator_pos a) (numerator_pos hb))

end Quotient

theorem close_powerOfTen {n : Nat} (hn : n ≤ 308) : Close rounding (10 ^ n) (value (powerOfTen n)) := by
  have hcast : ((Nat.pow 10 n : Nat) : ℚ) = 10 ^ n := by rw [Nat.pow_eq]; push_cast; rfl
  have hten : (1 : ℚ) ≤ 10 := by norm_num
  have hone : (1 : ℚ) ≤ (Nat.pow 10 n : Nat) := hcast ▸ one_le_pow₀ hten
  have htop : ((Nat.pow 10 n : Nat) : ℚ) ≤ 10 ^ 308 := hcast ▸ pow_le_pow_right₀ hten hn
  have hclose := close_nearest one_pos (binade_lt_nearest hone) (nearest_lt_infinity htop)
  rwa [Nat.cast_one, div_one, hcast] at hclose

theorem value_powerOfTen {n : Nat} (hn : n ≤ 22) : value (powerOfTen n) = 10 ^ n := by
  have hfive : 5 ^ n < 2 ^ 53 := (Nat.pow_le_pow_right (by decide) hn).trans_lt (by decide)
  have hten : Nat.pow 10 n = 5 ^ n * 2 ^ n := (Nat.mul_pow 5 2 n).symm ▸ rfl
  rw [powerOfTen, hten, value_nearest_of_dyadic hfive (by omega), ← Nat.mul_pow]
  push_cast
  rfl

section Words

variable {word : Nat}

theorem word_le_top (htop : word ≤ 10 ^ 17) : (word : ℚ) ≤ 10 ^ 308 := by
  have htop : (word : ℚ) ≤ 10 ^ 17 := by exact_mod_cast htop
  exact htop.trans (pow_le_pow_right₀ (by norm_num) (by decide))

theorem close_word (hone : 1 ≤ word) (htop : word ≤ 10 ^ 17) : Close rounding word (value (nearest word 1)) := by
  have hone : (1 : ℚ) ≤ word := by exact_mod_cast hone
  have hclose := close_nearest one_pos (binade_lt_nearest hone) (nearest_lt_infinity (word_le_top htop))
  rwa [Nat.cast_one, div_one] at hclose

theorem nearest_word_ne_zero (hone : 1 ≤ word) : nearest word 1 ≠ 0 :=
  (lt_trans (by decide) (binade_lt_nearest (by exact_mod_cast hone))).ne'

theorem word_le_midpoint (htop : word ≤ 10 ^ 17) : (word : ℚ) ≤ midpoint (nearest word 1) := by
  have hle := le_midpoint_of_nearest_eq one_pos (nearest_lt_infinity (word_le_top htop)) rfl
  rwa [Nat.cast_one, div_one] at hle

end Words

/-- The pattern of a number close to a positive one is not zero. -/
theorem pos_of_close {s a : ℚ} {p : Nat} (ha : 0 < a) (h : Close s a (value p)) : 0 < p := by
  rcases p.eq_zero_or_pos with rfl | hp
  · have hle := h.le
    rw [value_zero, zero_mul] at hle
    exact absurd ha (not_lt.mpr hle)
  · exact hp

variable {p word : Nat} {e : ℤ}

/-! ## One step -/

theorem product_near (hp : p < Coord.infinity) (hone : 1 ≤ word) (htop : word ≤ 10 ^ 17) {n : Nat} (hn : n ≤ 308)
    (hread : readsBack p word n = true) :
    product (nearest word 1) (powerOfTen n) ≤ p + 2 ∧ p ≤ product (nearest word 1) (powerOfTen n) + 2 := by
  have hword := close_word hone htop
  apply nearest_near (x := word * 10 ^ (n : ℤ)) (Nat.mul_pos (denominator_pos _) (denominator_pos _)) hp
    (fun r _ => midpoint_mul_rounding_sq_lt r) (fun r => midpoint_le_of_readsBack hread)
    (le_midpoint_of_readsBack hp hread) (sq_nonneg rounding)
  rw [product_ratio, zpow_natCast, pow_two]
  exact hword.mul (close_powerOfTen hn) (Nat.cast_nonneg _) (value_nonneg _) (by positivity) (value_nonneg _)

theorem quotient_near (hp : p < Coord.infinity) (hone : 1 ≤ word) (htop : word ≤ 10 ^ 17) {n : Nat} (hn : n ≤ 308)
    (hread : readsBack p word (-n) = true) :
    quotient (nearest word 1) (powerOfTen n) ≤ p + 2 ∧ p ≤ quotient (nearest word 1) (powerOfTen n) + 2 := by
  have hword := close_word hone htop
  have hten := close_powerOfTen hn
  have hpos : 0 < powerOfTen n := pos_of_close (by positivity) hten
  apply nearest_near (x := word * 10 ^ (-n : ℤ)) (Nat.mul_pos (denominator_pos _) (numerator_pos hpos)) hp
    (fun r _ => midpoint_mul_rounding_sq_lt r) (fun r => midpoint_le_of_readsBack hread)
    (le_midpoint_of_readsBack hp hread) (sq_nonneg rounding)
  rw [quotient_ratio, zpow_neg, zpow_natCast, pow_two, ← div_eq_mul_inv]
  exact hword.div hten (Nat.cast_nonneg _) (value_nonneg _) (by positivity) (value_pos hpos)

/-! ## The first of two steps -/

/-- The significand of the rounded `10 ^ 308`, whose exponent is 971. -/
abbrev topSignificand : Nat := 5010420900022432

/-- The pattern of the rounded `10 ^ 308`, which is too large by at most one part in `10 * 2 ^ 53`. -/
theorem powerOfTen_top :
    powerOfTen 308 = 0x7fe1ccf385ebc8a0 ∧ 10 ^ 308 ≤ topSignificand * 2 ^ 971 ∧
      topSignificand * 2 ^ 971 * (10 * 2 ^ 53) ≤ 10 ^ 308 * (10 * 2 ^ 53 + 1) := by
  decide +kernel

theorem value_powerOfTen_top : value (powerOfTen 308) = topSignificand * 2 ^ 971 := by
  rw [powerOfTen_top.1]
  norm_num [value, significand, exponent]

theorem ten_pow_top_le : (10 : ℚ) ^ 308 ≤ topSignificand * 2 ^ 971 := by
  exact_mod_cast powerOfTen_top.2.1

theorem le_ten_pow_top : (topSignificand * 2 ^ 971 : ℚ) ≤ 10 ^ 308 * (1 + 1 / (10 * 2 ^ 53)) := by
  have h : (topSignificand * 2 ^ 971 * (10 * 2 ^ 53) : ℚ) ≤ 10 ^ 308 * (10 * 2 ^ 53 + 1) := by
    exact_mod_cast powerOfTen_top.2.2
  rw [← mul_le_mul_iff_of_pos_right (show (0 : ℚ) < 10 * 2 ^ 53 by positivity)]
  refine h.trans_eq ?_
  rw [mul_assoc]
  congr 1
  norm_num

theorem close_top : Close (1 + 1 / (10 * 2 ^ 53)) (10 ^ 308) (value (powerOfTen 308)) := by
  rw [value_powerOfTen_top]
  exact ⟨ten_pow_top_le.trans (le_mul_of_one_le_right (by positivity) (by norm_num)), le_ten_pow_top⟩

theorem powerOfTen_top_pos : 0 < powerOfTen 308 := pos_of_close (by positivity) close_top

theorem top_mul_least : value (powerOfTen 308) * 2 ^ (-1074 : ℤ) = topSignificand / 2 ^ 103 := by
  rw [value_powerOfTen_top, mul_assoc, ← zpow_natCast, ← zpow_add₀ two_ne_zero]
  norm_num

theorem ulp_of_lt {p : Nat} (hp : p < 2 * binade) : ulp p = 2 ^ (-1074 : ℤ) := by
  unfold ulp exponent
  split
  · rfl
  · congr 1
    unfold binade at *
    omega

theorem value_binade : value binade = 2 ^ 52 * 2 ^ (-1074 : ℤ) := by
  have hs : significand binade = 2 ^ 52 := by decide
  rw [value, hs, ← ulp, ulp_of_lt (by decide), Nat.cast_pow]
  rfl

/-- A quotient among the least patterns is off by half of the least unit at the most. -/
theorem quotient_bounds_of_le {a b : Nat} (hb : 0 < b) (h : quotient a b ≤ binade) :
    value a / value b ≤ value (quotient a b) + 2 ^ (-1074 : ℤ) / 2 ∧
      value (quotient a b) ≤ value a / value b + 2 ^ (-1074 : ℤ) / 2 := by
  have hunit : ∀ r ≤ quotient a b, ulp r = 2 ^ (-1074 : ℤ) := fun r hr =>
    ulp_of_lt (hr.trans_lt (h.trans_lt (by decide)))
  constructor
  · rw [← hunit _ le_rfl]
    exact le_midpoint_quotient hb (h.trans_lt (by decide))
  · rcases Nat.eq_zero_or_pos (quotient a b) with hzero | hpos
    · rw [hzero, value_zero]
      have hnonneg : 0 ≤ value a / value b := div_nonneg (value_nonneg a) (value_nonneg b)
      positivity
    · obtain ⟨r, hr⟩ : ∃ r, quotient a b = r + 1 := ⟨quotient a b - 1, by omega⟩
      have hle := midpoint_le_of_lt_quotient hb (show r < quotient a b by omega)
      rw [midpoint] at hle
      rw [hr, value_succ, ← hunit r (by omega)]
      linarith

/-- What is left of a word after a division by `10 ^ 308`. -/
def firstStep (word : Nat) : Nat := quotient (nearest word 1) (powerOfTen 308)

theorem firstStep_lt_infinity (hone : 1 ≤ word) (htop : word ≤ 10 ^ 17) : firstStep word < Coord.infinity := by
  have hle : value (nearest word 1) ≤ value (powerOfTen 308) := by
    have htop : (word : ℚ) ≤ 10 ^ 17 := by exact_mod_cast htop
    have hten : (10 : ℚ) ^ 18 ≤ 10 ^ 308 := pow_le_pow_right₀ (by norm_num) (by decide)
    rw [value_powerOfTen_top]
    refine le_trans ?_ (hten.trans ten_pow_top_le)
    refine (close_word hone (by exact_mod_cast htop)).ge.trans ?_
    norm_num [rounding]
    linarith
  have hone : value 0x3ff0000000000000 = 1 := by norm_num [value, significand, exponent]
  refine lt_of_le_of_lt (quotient_le_of_lt_midpoint (p := 0x3ff0000000000000) powerOfTen_top_pos ?_) (by decide)
  calc value (nearest word 1) / value (powerOfTen 308) ≤ 1 := (div_le_one (value_pos powerOfTen_top_pos)).mpr hle
    _ = value 0x3ff0000000000000 := hone.symm
    _ < midpoint 0x3ff0000000000000 := value_lt_midpoint _

/-- The division leaves one of the least patterns only if the word is very small. -/
theorem word_lt_of_firstStep_le (hone : 1 ≤ word) (htop : word ≤ 10 ^ 17) (h : firstStep word ≤ binade) : word < 3 := by
  have hT := value_pos powerOfTen_top_pos
  have hhigh : value (nearest word 1) / value (powerOfTen 308) ≤ midpoint binade :=
    (le_midpoint_quotient powerOfTen_top_pos (firstStep_lt_infinity hone htop)).trans (midpoint_mono h)
  have hvalue : value (nearest word 1) ≤ 5 / 2 := by
    rw [div_le_iff₀ hT] at hhigh
    refine hhigh.trans ?_
    have hfoot : midpoint binade = (2 ^ 52 + 1 / 2) * 2 ^ (-1074 : ℤ) := by
      rw [midpoint, value_binade, ulp_of_lt (by decide), add_mul, one_div_mul_eq_div]
    rw [hfoot, mul_assoc, mul_comm (2 ^ (-1074 : ℤ)), top_mul_least]
    norm_num
  have hword : (word : ℚ) < 3 := by
    refine (close_word hone htop).le.trans_lt ?_
    norm_num [rounding]
    linarith
  exact_mod_cast hword

theorem value_nearest_of_lt {word : Nat} (h : word < 2 ^ 53) : value (nearest word 1) = word := by
  have hexact := value_nearest_of_dyadic h (show 0 ≤ 971 by decide)
  rwa [pow_zero, Nat.mul_one] at hexact

theorem close_firstStep_of_le (hone : 1 ≤ word) (htop : word ≤ 10 ^ 17) (h : firstStep word ≤ binade) :
    Close (1 + 5 / (2 * 2 ^ 53)) (value (nearest word 1) / value (powerOfTen 308)) (value (firstStep word)) := by
  have hT := value_pos powerOfTen_top_pos
  obtain ⟨hhigh, hlow⟩ := quotient_bounds_of_le powerOfTen_top_pos h
  rw [← firstStep] at hhigh hlow
  generalize hy : value (nearest word 1) / value (powerOfTen 308) = y at *
  -- half a unit is a small part of the quotient
  have hhalf : (2 : ℚ) ^ (-1074 : ℤ) / 2 ≤ 9 / (4 * 2 ^ 53) * y := by
    have hword : (1 : ℚ) ≤ word := by exact_mod_cast hone
    have hlt : word < 2 ^ 53 := (word_lt_of_firstStep_le hone htop h).trans (by decide)
    rw [← hy, value_nearest_of_lt hlt, mul_div_assoc', le_div_iff₀ hT, div_mul_eq_mul_div,
      mul_comm (2 ^ (-1074 : ℤ)), top_mul_least]
    norm_num
    linarith
  generalize (2 : ℚ) ^ (-1074 : ℤ) / 2 = half at *
  have hnonneg : 0 ≤ y := hy ▸ div_nonneg (value_nonneg _) (value_nonneg _)
  norm_num at hhalf ⊢
  constructor <;> linarith

/-- The first of two steps, whatever it leaves. -/
theorem close_firstStep (hone : 1 ≤ word) (htop : word ≤ 10 ^ 17) :
    Close (1 + 27 / (10 * 2 ^ 53)) (word / 10 ^ 308) (value (firstStep word)) := by
  have hT := value_pos powerOfTen_top_pos
  have hword := close_word hone htop
  have hten : (0 : ℚ) < 10 ^ 308 := by positivity
  rcases le_or_gt (firstStep word) binade with hsmall | hnormal
  · have hlt : word < 2 ^ 53 := (word_lt_of_firstStep_le hone htop hsmall).trans (by decide)
    have hstep := close_firstStep_of_le hone htop hsmall
    rw [value_nearest_of_lt hlt] at hstep
    have hsame : Close 1 (word : ℚ) word := .refl (Nat.cast_nonneg _) le_rfl
    have hfirst := hsame.div close_top (Nat.cast_nonneg _) (Nat.cast_nonneg _) hten hT
    exact (hfirst.trans hstep (by norm_num) (by norm_num)).mono (by positivity) (value_nonneg _) (by norm_num)
  · have hstep := close_quotient powerOfTen_top_pos hnormal (firstStep_lt_infinity hone htop)
    have hfirst := hword.div close_top (Nat.cast_nonneg _) (value_nonneg _) hten hT
    exact (hfirst.trans hstep (by norm_num [rounding]) (by norm_num [rounding])).mono (by positivity) (value_nonneg _)
      (by norm_num [rounding])

/-- A quotient by the rounded `10 ^ 308` whose dividend has a smaller significand than that lies high on its scale,
where its rounding weighs little. -/
theorem le_quotient_of_small {f top : Nat} (hf : binade ≤ f) (htop : value top = topSignificand * 2 ^ 971)
    (hsmall : value f < topSignificand * ulp f) (hnormal : binade < quotient f top)
    (hfinite : quotient f top < Coord.infinity) :
    value f / value top ≤ value (quotient f top) * (1 + 3 / (5 * 2 ^ 53)) := by
  have hpos : 0 < f := lt_of_lt_of_le (by decide) hf
  have htopPos : 0 < top := pos_of_close (a := value top) (by rw [htop]; positivity) (.refl (value_nonneg _) le_rfl)
  obtain ⟨q, m, hq, hround⟩ := quotient_roundsOn hpos htopPos
  have hlow : value binade ≤ value f / value top :=
    (value_lt_midpoint binade).le.trans (midpoint_le_of_lt_quotient htopPos hnormal)
  have hvalue : value (quotient f top) = m * 2 ^ q := by
    rw [hq, Nat.min_eq_right (by omega), hround.value_eq]
  have hdef : value f / value top = value f / 2 ^ 971 / topSignificand := by
    rw [htop, mul_comm, div_div]
  generalize value f / value top = y at *
  have hscale : (2 : ℚ) ^ 52 * 2 ^ q ≤ y := by
    rcases hround.least_scale.eq_or_lt with h | h
    · rw [← h, ← value_binade]
      exact hlow
    · exact hround.scale_le h
  have hcoarse : (2 : ℚ) ^ q ≤ ulp f / 2 ^ 971 / 2 ^ 53 := by
    have hunit : ulp f / 2 ^ 971 = 2 ^ (exponent f - 971) := by
      rw [ulp, zpow_sub₀ two_ne_zero]
      norm_cast
    have hfold : ulp f / 2 ^ 971 / 2 ^ 53 = 2 ^ (exponent f - 971 - 53) := by
      rw [hunit, zpow_sub₀ two_ne_zero (exponent f - 971)]
      norm_cast
    rw [hfold]
    refine zpow_le_zpow_right₀ one_le_two (scale_le_of_lt hscale ?_)
    rw [sub_add_cancel, ← hunit, hdef, div_lt_iff₀ (by norm_num), div_mul_eq_mul_div, mul_comm (ulp f)]
    exact div_lt_div_of_pos_right hsmall (by positivity)
  have hbig : 2 ^ 52 * (ulp f / 2 ^ 971) ≤ y * topSignificand := by
    rw [hdef, div_mul_cancel₀ _ (by norm_num), mul_div_assoc']
    exact div_le_div_of_nonneg_right (le_value_of_binade_le hf) (by positivity)
  have hbelow := hround.below
  rw [hvalue]
  generalize ulp f / 2 ^ 971 = unit at *
  generalize (m : ℚ) * 2 ^ q = w at *
  norm_num at hcoarse hbig hbelow ⊢
  linarith

/-- A bound for the rounding of the word and one for that of the quotient make a bound for the first of two steps. -/
theorem word_div_top_le {s t : ℚ} (hs : 0 ≤ s) (hword : word ≤ value (nearest word 1) * s)
    (hstep : value (nearest word 1) / value (powerOfTen 308) ≤ value (firstStep word) * t) :
    (word : ℚ) / 10 ^ 308 ≤ value (firstStep word) * (t * s * (1 + 1 / (10 * 2 ^ 53))) := by
  have hten : (0 : ℚ) < 10 ^ 308 := by positivity
  have hinv : (10 ^ 308 : ℚ)⁻¹ ≤ (value (powerOfTen 308))⁻¹ * (1 + 1 / (10 * 2 ^ 53)) :=
    (close_top.inv hten (value_pos powerOfTen_top_pos)).le
  calc (word : ℚ) / 10 ^ 308
      ≤ value (nearest word 1) * s * ((value (powerOfTen 308))⁻¹ * (1 + 1 / (10 * 2 ^ 53))) :=
        mul_le_mul hword hinv (inv_nonneg.mpr hten.le) (mul_nonneg (value_nonneg _) hs)
    _ = value (nearest word 1) / value (powerOfTen 308) * (s * (1 + 1 / (10 * 2 ^ 53))) := by ring
    _ ≤ value (firstStep word) * t * (s * (1 + 1 / (10 * 2 ^ 53))) := by gcongr
    _ = value (firstStep word) * (t * s * (1 + 1 / (10 * 2 ^ 53))) := by ring

/-- The first of two steps for a word that is not very small: the rounding of the word and that of the quotient are not
both large. -/
theorem close_firstStep_of_three_le (hthree : 3 ≤ word) (htop : word ≤ 10 ^ 17) :
    Close (rounding ^ 2) (word / 10 ^ 308) (value (firstStep word)) := by
  have hone : 1 ≤ word := by omega
  have hword := close_word hone htop
  have hten : (0 : ℚ) < 10 ^ 308 := by positivity
  have hfinite := firstStep_lt_infinity hone htop
  have hnormal : binade < firstStep word := by
    by_contra hle
    exact absurd (word_lt_of_firstStep_le hone htop (not_lt.mp hle)) (by omega)
  have hstep := close_quotient powerOfTen_top_pos hnormal hfinite
  rw [← firstStep] at hstep
  constructor
  · rcases lt_or_ge (value (nearest word 1)) (topSignificand * ulp (nearest word 1)) with hsmall | hlarge
    · have hf : binade < nearest word 1 := binade_lt_nearest (by exact_mod_cast hone)
      have hquotient := le_quotient_of_small hf.le value_powerOfTen_top hsmall hnormal hfinite
      refine (word_div_top_le (by norm_num [rounding]) hword.le hquotient).trans ?_
      exact mul_le_mul_of_nonneg_left (by norm_num [rounding]) (value_nonneg _)
    · have hrounded : (word : ℚ) ≤ value (nearest word 1) * (1 + 1 / (2 * topSignificand)) := by
        have hle := word_le_midpoint htop
        unfold midpoint at hle
        norm_num at hlarge ⊢
        linarith
      refine (word_div_top_le (by positivity) hrounded hstep.le).trans ?_
      exact mul_le_mul_of_nonneg_left (by norm_num [rounding]) (value_nonneg _)
  · calc value (firstStep word) ≤ value (nearest word 1) / value (powerOfTen 308) * rounding := hstep.ge
      _ ≤ word * rounding / 10 ^ 308 * rounding := by
        refine mul_le_mul_of_nonneg_right (div_le_div₀ ?_ hword.ge hten ?_) (by norm_num [rounding])
        · exact (value_nonneg _).trans hword.ge
        · rw [value_powerOfTen_top]
          exact ten_pow_top_le
      _ = word / 10 ^ 308 * rounding ^ 2 := by rw [mul_div_right_comm, mul_assoc, ← pow_two]

/-! ## Bounds for exponents -/

theorem two_pow_lt_ten_pow : 2 ^ 1024 < 10 ^ 309 :=
  calc 2 ^ 1024 = (2 ^ 93) ^ 11 * 2 := by rw [← pow_mul, ← pow_succ]
    _ ≤ (10 ^ 28) ^ 11 * 2 := Nat.mul_le_mul_right 2 (Nat.pow_le_pow_left (by decide) 11)
    _ < (10 ^ 28) ^ 11 * 10 := Nat.mul_lt_mul_of_pos_left (by decide) (by positivity)
    _ = 10 ^ 309 := by rw [← pow_mul, ← pow_succ]

theorem exponent_le_of_readsBack (hp : p < Coord.infinity) (hone : 1 ≤ word) (hread : readsBack p word e = true) :
    e ≤ 308 := by
  have hlt : (10 : ℚ) ^ e < 10 ^ (309 : ℤ) := by
    have hone : (1 : ℚ) ≤ word := by exact_mod_cast hone
    have hten : (2 : ℚ) ^ 1024 < 10 ^ 309 := by exact_mod_cast two_pow_lt_ten_pow
    calc (10 : ℚ) ^ e ≤ word * 10 ^ e := le_mul_of_one_le_left (zpow_nonneg (by norm_num) e) hone
      _ ≤ midpoint p := le_midpoint_of_readsBack hp hread
      _ < value Coord.infinity := midpoint_lt_value hp
      _ = 2 ^ 1024 := value_infinity
      _ < 10 ^ 309 := hten
  have := (zpow_lt_zpow_iff_right₀ (by norm_num)).mp hlt
  omega

theorem ten_pow_le_of_two_zpow_le {k n : Nat} (h : (2 : ℚ) ^ (-k : ℤ) ≤ word * 10 ^ (-n : ℤ)) :
    10 ^ n ≤ word * 2 ^ k := by
  rw [zpow_neg, zpow_neg, zpow_natCast, zpow_natCast, ← div_eq_mul_inv, le_div_iff₀ (by positivity),
    inv_mul_le_iff₀ (by positivity), mul_comm] at h
  exact_mod_cast h

theorem lt_of_ten_pow_le {n m j : Nat} (h : 10 ^ n ≤ m * 2 ^ 1024) (hm : m ≤ 10 ^ j) : n < j + 309 := by
  have hlt : 10 ^ n < 10 ^ (j + 309) :=
    calc 10 ^ n ≤ m * 2 ^ 1024 := h
      _ ≤ 10 ^ j * 2 ^ 1024 := Nat.mul_le_mul_right _ hm
      _ < 10 ^ j * 10 ^ 309 := Nat.mul_lt_mul_of_pos_left two_pow_lt_ten_pow (by positivity)
      _ = 10 ^ (j + 309) := (pow_add 10 j 309).symm
  exact (Nat.pow_lt_pow_iff_right (by decide)).mp hlt

/-- Only two steps are ever needed to divide a word of at most seventeen digits. -/
theorem divisor_lt_of_readsBack (hp : 0 < p) (htop : word ≤ 10 ^ 17) {n : Nat} (hread : readsBack p word (-n) = true) :
    n < 616 := by
  have hfirst : (2 : ℚ) ^ (-(1075 : Nat) : ℤ) ≤ word * 10 ^ (-n : ℤ) := by
    refine le_trans (le_of_eq ?_) (midpoint_le_of_readsBack hread hp)
    rw [midpoint, ulp_of_lt (by decide), value_zero, zero_add,
      show (-(1075 : Nat) : ℤ) = -1074 - 1 by decide, zpow_sub_one₀ two_ne_zero, div_eq_mul_inv]
  have hle : 10 ^ n ≤ word * 2 ^ 51 * 2 ^ 1024 := by
    rw [mul_assoc, ← pow_add]
    exact ten_pow_le_of_two_zpow_le hfirst
  have hword : word * 2 ^ 51 ≤ 10 ^ 33 := (Nat.mul_le_mul_right _ htop).trans (by decide)
  have hlt := lt_of_ten_pow_le hle hword
  omega

/-- From the second scale on the second of two steps divides by a power of ten that is exact, and the word has two
digits at least. -/
theorem divisor_lt_of_binade_le (hp : binade ≤ p) (htop : word ≤ 10 ^ 17) {n : Nat}
    (hread : readsBack p word (-n) = true) (hn : 308 < n) : n ≤ 330 ∧ 3 ≤ word := by
  have hfirst : (2 : ℚ) ^ (-(1023 : Nat) : ℤ) ≤ word * 10 ^ (-n : ℤ) := by
    refine le_trans ?_ (midpoint_le_of_readsBack hread (show binade - 1 < p from lt_of_lt_of_le (by decide) hp))
    have hsucc : value binade = value (binade - 1) + ulp (binade - 1) := value_succ (binade - 1)
    rw [value_binade, ulp_of_lt (by decide)] at hsucc
    rw [midpoint, ulp_of_lt (by decide), show (-(1023 : Nat) : ℤ) = 51 + -1074 by decide, zpow_add₀ two_ne_zero]
    have hpos : (0 : ℚ) < 2 ^ (-1074 : ℤ) := by positivity
    generalize (2 : ℚ) ^ (-1074 : ℤ) = least at *
    norm_num at hsucc ⊢
    linarith
  have hle := ten_pow_le_of_two_zpow_le hfirst
  constructor
  · have hpow : 2 ^ 1023 ≤ 2 ^ 1024 := pow_le_pow_right₀ one_le_two (Nat.le_succ 1023)
    have hlt := lt_of_ten_pow_le (hle.trans (Nat.mul_le_mul_left word hpow)) htop
    omega
  · by_contra hsmall
    have hword : word * 2 ^ 1023 ≤ 1 * 2 ^ 1024 := by
      rw [one_mul, pow_succ' 2 1023]
      exact Nat.mul_le_mul_right _ (by omega)
    have hlt := lt_of_ten_pow_le (j := 0) (hle.trans hword) le_rfl
    omega

/-! ## Two steps -/

theorem quotient_firstStep_near (hpos : 0 < p) (hp : p < Coord.infinity) (hone : 1 ≤ word) (htop : word ≤ 10 ^ 17)
    {j : Nat} (hj : 0 < j) (hread : readsBack p word (-(308 + j : Nat)) = true) :
    quotient (firstStep word) (powerOfTen j) ≤ p + 2 ∧ p ≤ quotient (firstStep word) (powerOfTen j) + 2 := by
  have hsteps := divisor_lt_of_readsBack hpos htop hread
  have hten := close_powerOfTen (show j ≤ 308 by omega)
  have htenPos : 0 < powerOfTen j := pos_of_close (by positivity) hten
  have hden := Nat.mul_pos (denominator_pos (firstStep word)) (numerator_pos htenPos)
  have hx : (word : ℚ) * 10 ^ (-(308 + j : Nat) : ℤ) = word / 10 ^ 308 / 10 ^ j := by
    rw [zpow_neg, zpow_natCast, pow_add, div_div, div_eq_mul_inv]
  have hlow := fun r => midpoint_le_of_readsBack hread (r := r)
  have hhigh := le_midpoint_of_readsBack hp hread
  rw [hx] at hhigh
  simp only [hx] at hlow
  have hratio := quotient_ratio (firstStep word) (powerOfTen j)
  rcases lt_or_ge p binade with hleast | hnormal
  · refine nearest_near hden hp (fun r hr => midpoint_mul_lt_of_lt_binade (by omega)) hlow hhigh (by norm_num) ?_
    rw [hratio]
    have hclose := (close_firstStep hone htop).div hten (by positivity) (value_nonneg _) (by positivity)
      (value_pos htenPos)
    exact hclose.mono (by positivity) (div_nonneg (value_nonneg _) (value_nonneg _)) (by norm_num [rounding])
  · obtain ⟨hle, hthree⟩ := divisor_lt_of_binade_le hnormal htop hread (by omega)
    refine nearest_near hden hp (fun r _ => midpoint_mul_rounding_sq_lt r) hlow hhigh (sq_nonneg rounding) ?_
    rw [hratio, value_powerOfTen (by omega)]
    have hsame : Close 1 ((10 : ℚ) ^ j) (10 ^ j) := .refl (by positivity) le_rfl
    have hclose := (close_firstStep_of_three_le hthree htop).div hsame (by positivity) (value_nonneg _) (by positivity)
      (by positivity)
    rwa [mul_one] at hclose

/-! ## Scaling -/

theorem scale_natCast {pattern n : Nat} (hpattern : pattern ≠ 0) (hn : n ≤ 308)
    (hfinite : product pattern (powerOfTen n) < Coord.infinity) :
    scale pattern n = some (product pattern (powerOfTen n)) := by
  have hstep : ¬ maxStep < n := not_lt.mpr hn
  rw [scale, if_pos (Int.natCast_nonneg n), if_neg hpattern, Int.toNat_natCast, if_neg hstep, if_pos hfinite]

theorem scale_neg_natCast {n : Nat} (pattern : Nat) (hpos : 0 < n) (hn : n ≤ 308) :
    scale pattern (-n) = some (quotient pattern (powerOfTen n)) := by
  have hstep : n ≤ maxStep := hn
  rw [scale, if_neg (by omega), neg_neg, Int.toNat_natCast, if_pos hstep]

theorem scale_neg_add {pattern j : Nat} (hpattern : pattern ≠ 0) (hpos : 0 < j) :
    scale pattern (-(308 + j : Nat)) = scale (quotient pattern (powerOfTen 308)) (-j) := by
  have hstep : ¬ 308 + j ≤ maxStep := by simp only [maxStep]; omega
  have hrest : -((308 + j : Nat) : ℤ) + maxStep = -j := by simp only [maxStep]; omega
  rw [scale, if_neg (by omega), neg_neg, Int.toNat_natCast, if_neg hstep, if_neg hpattern, hrest, maxStep]

/-- A decimal of at most seventeen digits that rounds to a pattern is read as one of the patterns around it, at most two
steps away. -/
theorem scale_near (hpos : 0 < p) (hp : p + 2 < Coord.infinity) (htop : word ≤ 10 ^ 17)
    (hread : readsBack p word e = true) :
    ∃ r, scale (nearest word 1) e = some r ∧ r ≤ p + 2 ∧ p ≤ r + 2 := by
  have hone : 1 ≤ word := pos_of_readsBack hpos hread
  have hne := nearest_word_ne_zero hone
  have hfinite : p < Coord.infinity := by omega
  rcases le_or_gt 0 e with hnonneg | hneg
  · obtain ⟨n, rfl⟩ := Int.eq_ofNat_of_zero_le hnonneg
    have hn : n ≤ 308 := by exact_mod_cast exponent_le_of_readsBack hfinite hone hread
    have hnear := product_near hfinite hone htop hn hread
    exact ⟨_, scale_natCast hne hn (by omega), hnear⟩
  · obtain ⟨n, rfl⟩ : ∃ n : Nat, e = -n := ⟨(-e).toNat, by omega⟩
    rcases le_or_gt n 308 with hn | hn
    · exact ⟨_, scale_neg_natCast _ (by omega) hn, quotient_near hfinite hone htop hn hread⟩
    · obtain ⟨j, rfl⟩ : ∃ j, n = 308 + j := ⟨n - 308, by omega⟩
      have hsteps := divisor_lt_of_readsBack hpos htop hread
      have hscale : scale (nearest word 1) (-(308 + j : Nat)) = some (quotient (firstStep word) (powerOfTen j)) := by
        rw [scale_neg_add hne (by omega), ← firstStep, scale_neg_natCast _ (by omega) (by omega)]
      exact ⟨_, hscale, quotient_firstStep_near hpos hfinite hone htop (by omega) hread⟩

/-- Where neither the word nor the power of ten is rounded, the scaled number is rounded once and correctly. -/
theorem scale_exact (hpos : 0 < p) (hp : p < Coord.infinity) (hword : value (nearest word 1) = word) (hlow : -22 ≤ e)
    (hhigh : e ≤ 22) (hread : readsBack p word e = true) : scale (nearest word 1) e = some p := by
  have hone : 1 ≤ word := pos_of_readsBack hpos hread
  have hne := nearest_word_ne_zero hone
  rcases le_or_gt 0 e with hnonneg | hneg
  · obtain ⟨n, rfl⟩ := Int.eq_ofNat_of_zero_le hnonneg
    have hproduct : product (nearest word 1) (powerOfTen n) = p := by
      apply nearest_of_readsBack (Nat.mul_pos (denominator_pos _) (denominator_pos _)) ?_ hread
      rw [product_ratio, hword, value_powerOfTen (by omega), zpow_natCast]
    rw [scale_natCast hne (by omega) (hproduct ▸ hp), hproduct]
  · obtain ⟨n, rfl⟩ : ∃ n : Nat, e = -n := ⟨(-e).toNat, by omega⟩
    have htenPos : 0 < powerOfTen n := pos_of_close (by positivity) (close_powerOfTen (by omega))
    have hquotient : quotient (nearest word 1) (powerOfTen n) = p := by
      apply nearest_of_readsBack (Nat.mul_pos (denominator_pos _) (numerator_pos htenPos)) ?_ hread
      rw [quotient_ratio, hword, value_powerOfTen (by omega), zpow_neg, zpow_natCast, div_eq_mul_inv]
    rw [scale_neg_natCast _ (by omega) (by omega), hquotient]

end Polypath.Decimal
