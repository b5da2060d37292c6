import Mathlib.Algebra.Order.Field.Power
import Mathlib.Data.Rat.Cast.Order
import Mathlib.Order.Monotone.Basic
import Mathlib.Tactic.FieldSimp
import Mathlib.Tactic.GCongr
import Mathlib.Tactic.Linarith
import Mathlib.Tactic.LinearCombination
import Mathlib.Tactic.NormNum
import Mathlib.Tactic.Positivity
import Mathlib.Tactic.Ring
import Polypath.Decimal.Magnitude

/-!
# Rounding to the nearest number

Patterns are in the order of their values, and the value of a pattern is followed by the next one at a distance of
`ulp`. All that the later modules use of `nearest` is said by the midpoints between neighbouring values: a ratio below
the midpoint after a pattern rounds to at most that pattern, and one above it to a later pattern
(`nearest_le_of_lt_midpoint`, `lt_nearest_of_midpoint_lt`). At a midpoint itself the result depends on the ratio
alone and not on the fraction that writes it (`nearest_congr`).
-/

namespace Polypath.Decimal

/-! ## Values and their distances -/

/-- The number that a pattern stands for; the pattern of infinity gets the number that would come next. -/
def value (pattern : Nat) : ℚ := significand pattern * 2 ^ exponent pattern

/-- The distance from the value of a pattern to the next value. -/
def ulp (pattern : Nat) : ℚ := 2 ^ exponent pattern

/-- The number halfway between the value of a pattern and the next value. -/
def midpoint (pattern : Nat) : ℚ := value pattern + ulp pattern / 2

theorem zpow_eq_pow_div_pow (b : ℚ) (e : ℤ) : b ^ e = b ^ e.toNat / b ^ (-e).toNat := by
  obtain ⟨n, rfl | rfl⟩ := e.eq_nat_or_neg
  · simp
  · simp [zpow_neg]

theorem ulp_pos (pattern : Nat) : 0 < ulp pattern := zpow_pos two_pos _

theorem value_nonneg (pattern : Nat) : 0 ≤ value pattern :=
  mul_nonneg (Nat.cast_nonneg _) (ulp_pos pattern).le

theorem value_zero : value 0 = 0 := by simp [value, significand]

theorem denominator_pos (pattern : Nat) : 0 < denominator pattern := Nat.pow_pos two_pos

theorem numerator_div_denominator (pattern : Nat) : (numerator pattern : ℚ) / denominator pattern = value pattern := by
  rw [value, zpow_eq_pow_div_pow, numerator, denominator, Nat.pow_eq, Nat.pow_eq]
  push_cast
  ring

theorem significand_lt (pattern : Nat) : significand pattern < 2 * binade := by
  unfold significand binade
  split <;> omega

theorem exponent_mono {a b : Nat} (h : a ≤ b) : exponent a ≤ exponent b := by
  unfold exponent binade
  split <;> split <;> omega

theorem ulp_mono {a b : Nat} (h : a ≤ b) : ulp a ≤ ulp b :=
  zpow_le_zpow_right₀ one_le_two (exponent_mono h)

/-- A step to the next pattern stays on the same scale, or it enters the next one at its least significand. -/
theorem exponent_succ (pattern : Nat) :
    exponent (pattern + 1) = exponent pattern ∧ significand (pattern + 1) = significand pattern + 1 ∨
      exponent (pattern + 1) = exponent pattern + 1 ∧ significand (pattern + 1) = binade ∧
        significand pattern + 1 = 2 * binade := by
  unfold exponent significand binade
  split <;> split <;> omega

theorem value_succ (pattern : Nat) : value (pattern + 1) = value pattern + ulp pattern := by
  unfold value ulp
  rcases exponent_succ pattern with ⟨he, hs⟩ | ⟨he, hs, hlast⟩
  · rw [he, hs]
    push_cast
    ring
  · have hlast : (significand pattern : ℚ) + 1 = 2 * binade := by exact_mod_cast hlast
    rw [he, hs, zpow_add_one₀ two_ne_zero]
    linear_combination (-(2 : ℚ) ^ exponent pattern) * hlast

theorem value_strictMono : StrictMono value := by
  apply strictMono_nat_of_lt_succ
  intro pattern
  rw [value_succ]
  exact lt_add_of_pos_right _ (ulp_pos pattern)

theorem value_pos {pattern : Nat} (h : 0 < pattern) : 0 < value pattern :=
  (value_nonneg 0).trans_lt (value_strictMono h)

theorem numerator_pos {pattern : Nat} (h : 0 < pattern) : 0 < numerator pattern := by
  have hden : (0 : ℚ) < denominator pattern := by exact_mod_cast denominator_pos pattern
  have hvalue := value_pos h
  rw [← numerator_div_denominator, div_pos_iff_of_pos_right hden] at hvalue
  exact_mod_cast hvalue

theorem value_infinity : value Coord.infinity = 2 ^ 1024 := by
  have hscale : (4503599627370496 : ℚ) = 2 ^ 52 := by norm_num
  norm_num [value, significand, exponent]
  rw [hscale, ← pow_add]

theorem value_add_ulp (pattern : Nat) : value pattern + ulp pattern = (significand pattern + 1) * ulp pattern := by
  unfold value ulp
  ring

/-- The next value is no more than `2 ^ 53` units away from zero. -/
theorem value_add_ulp_le (pattern : Nat) : value pattern + ulp pattern ≤ 2 ^ 53 * ulp pattern := by
  have hs : (significand pattern : ℚ) + 1 ≤ 2 ^ 53 := by exact_mod_cast significand_lt pattern
  rw [value_add_ulp]
  exact mul_le_mul_of_nonneg_right hs (ulp_pos pattern).le

/-- From the second scale on a value is at least `2 ^ 52` units. -/
theorem le_value_of_binade_le {pattern : Nat} (h : binade ≤ pattern) : 2 ^ 52 * ulp pattern ≤ value pattern := by
  have hs : (2 : ℚ) ^ 52 ≤ significand pattern := by
    unfold significand
    rw [if_neg (by omega)]
    norm_num
  unfold value
  exact mul_le_mul_of_nonneg_right hs (ulp_pos pattern).le

theorem midpoint_lt_value {a b : Nat} (h : a < b) : midpoint a < value b := by
  have hle : value (a + 1) ≤ value b := value_strictMono.monotone h
  rw [value_succ] at hle
  have hpos := ulp_pos a
  unfold midpoint
  linarith

theorem midpoint_mono {a b : Nat} (h : a ≤ b) : midpoint a ≤ midpoint b := by
  have hvalue : value a ≤ value b := value_strictMono.monotone h
  have hulp := ulp_mono h
  unfold midpoint
  linarith

theorem value_lt_midpoint (pattern : Nat) : value pattern < midpoint pattern :=
  lt_add_of_pos_right _ (half_pos (ulp_pos pattern))

/-! ## The integer nearest to a ratio -/

theorem roundDiv_bounds (num : Nat) {den : Nat} (hden : 0 < den) :
    (num : ℚ) / den - 1 / 2 ≤ roundDiv num den ∧ (roundDiv num den : ℚ) ≤ num / den + 1 / 2 := by
  have hpos : (0 : ℚ) < den := by exact_mod_cast hden
  have hdiv : (num : ℚ) = den * (num / den : Nat) + (num % den : Nat) := by
    exact_mod_cast (Nat.div_add_mod num den).symm
  have hratio : (num : ℚ) / den = (num / den : Nat) + (num % den : Nat) / den := by
    rw [hdiv]
    field_simp
  have hrest : ((num % den : Nat) : ℚ) / den * den = (num % den : Nat) := div_mul_cancel₀ _ hpos.ne'
  rw [hratio]
  unfold roundDiv
  simp only
  split_ifs with hdown
  · have hhalf : (2 : ℚ) * (num % den : Nat) ≤ den := by exact_mod_cast (by omega : 2 * (num % den) ≤ den)
    have hnonneg : (0 : ℚ) ≤ (num % den : Nat) / den := by positivity
    have hle : ((num % den : Nat) : ℚ) / den ≤ 1 / 2 := by
      rw [div_le_iff₀ hpos]
      linarith
    constructor <;> linarith
  · have hhalf : (den : ℚ) ≤ 2 * (num % den : Nat) := by exact_mod_cast (by omega : den ≤ 2 * (num % den))
    have hle : (1 : ℚ) / 2 ≤ (num % den : Nat) / den := by
      rw [le_div_iff₀ hpos]
      linarith
    have hlt : ((num % den : Nat) : ℚ) / den < 1 := by
      rw [div_lt_one hpos]
      exact_mod_cast Nat.mod_lt num hden
    push_cast
    constructor <;> linarith

theorem roundDiv_mul_left {c : Nat} (hc : 0 < c) (num den : Nat) : roundDiv (c * num) (c * den) = roundDiv num den := by
  have hlt : 2 * (c * (num % den)) < c * den ↔ 2 * (num % den) < den := by
    rw [Nat.mul_left_comm, Nat.mul_lt_mul_left hc]
  have heq : 2 * (c * (num % den)) = c * den ↔ 2 * (num % den) = den := by
    rw [Nat.mul_left_comm, Nat.mul_right_inj hc.ne']
  simp only [roundDiv, Nat.mul_mod_mul_left, Nat.mul_div_mul_left _ _ hc, hlt, heq]

/-! ## The scale of a ratio -/

theorem zpow_two_le_ratio_iff {num den : Nat} (hden : 0 < den) (k : ℤ) :
    (2 : ℚ) ^ k ≤ num / den ↔ den * Nat.pow 2 k.toNat ≤ num * Nat.pow 2 (-k).toNat := by
  have hpos : (0 : ℚ) < den := by exact_mod_cast hden
  rw [zpow_eq_pow_div_pow, div_le_div_iff₀ (by positivity) hpos, mul_comm ((2 : ℚ) ^ k.toNat)]
  exact_mod_cast Iff.rfl

theorem floorLogTwo_bounds {num den : Nat} (hnum : 0 < num) (hden : 0 < den) :
    (2 : ℚ) ^ floorLogTwo num den ≤ num / den ∧ (num : ℚ) / den < 2 ^ (floorLogTwo num den + 1) := by
  have hpos : (0 : ℚ) < den := by exact_mod_cast hden
  have hnumLe : (2 : ℚ) ^ num.log2 ≤ num := by exact_mod_cast Nat.log2_self_le hnum.ne'
  have hnumLt : (num : ℚ) < 2 ^ (num.log2 + 1) := by exact_mod_cast Nat.lt_log2_self
  have hdenLe : (2 : ℚ) ^ den.log2 ≤ den := by exact_mod_cast Nat.log2_self_le hden.ne'
  have hdenLt : (den : ℚ) < 2 ^ (den.log2 + 1) := by exact_mod_cast Nat.lt_log2_self
  unfold floorLogTwo
  simp only [← zpow_two_le_ratio_iff hden]
  generalize hk : (num.log2 : ℤ) - den.log2 = k
  have hhigh : (num : ℚ) / den < 2 ^ (k + 1) := by
    rw [div_lt_iff₀ hpos]
    calc (num : ℚ) < 2 ^ (num.log2 + 1) := hnumLt
      _ = 2 ^ (k + 1) * 2 ^ den.log2 := by
        rw [← zpow_natCast, ← zpow_natCast, ← zpow_add₀ two_ne_zero]
        congr 1
        push_cast
        omega
      _ ≤ 2 ^ (k + 1) * den := by gcongr
  have hlow : (2 : ℚ) ^ (k - 1) ≤ num / den := by
    rw [le_div_iff₀ hpos]
    calc (2 : ℚ) ^ (k - 1) * den ≤ 2 ^ (k - 1) * 2 ^ (den.log2 + 1) := by gcongr
      _ = 2 ^ num.log2 := by
        rw [← zpow_natCast, ← zpow_natCast, ← zpow_add₀ two_ne_zero]
        congr 1
        push_cast
        omega
      _ ≤ num := hnumLe
  split_ifs with h
  · exact ⟨h, hhigh⟩
  · rw [sub_add_cancel]
    exact ⟨hlow, not_le.mp h⟩

/-- The bounds of `floorLogTwo_bounds` determine it. -/
theorem floorLogTwo_unique {num den : Nat} (hnum : 0 < num) (hden : 0 < den) {k : ℤ} (hle : (2 : ℚ) ^ k ≤ num / den)
    (hlt : (num : ℚ) / den < 2 ^ (k + 1)) : floorLogTwo num den = k := by
  obtain ⟨hle', hlt'⟩ := floorLogTwo_bounds hnum hden
  have hle : k < floorLogTwo num den + 1 := (zpow_lt_zpow_iff_right₀ one_lt_two).mp (hle.trans_lt hlt')
  have hge : floorLogTwo num den < k + 1 := (zpow_lt_zpow_iff_right₀ one_lt_two).mp (hle'.trans_lt hlt)
  omega

/-! ## The nearest pattern -/

/-- A significand that was rounded on the scale `q` stands there, or it was rounded up to the next scale. -/
theorem packed_cases {q : ℤ} {m : Nat} (hq : -1074 ≤ q) (hm : m ≤ 2 * binade) (hleast : q = -1074 ∨ binade ≤ m) :
    exponent ((q + 1074).toNat * binade + m) = q ∧ significand ((q + 1074).toNat * binade + m) = m ∨
      exponent ((q + 1074).toNat * binade + m) = q + 1 ∧ significand ((q + 1074).toNat * binade + m) = binade ∧
        m = 2 * binade := by
  unfold exponent significand binade at *
  split <;> omega

/-- The pattern just before one that was rounded on the scale `q` lies on that scale, unless the other is its least. -/
theorem before_packed {q : ℤ} {m p : Nat} (hq : -1074 ≤ q) (hleast : q = -1074 ∨ binade ≤ m)
    (hp : p + 1 = (q + 1074).toNat * binade + m) : q ≤ exponent p ∨ -1074 < q ∧ m = binade := by
  unfold exponent binade at *
  split <;> omega

/-- The rounding behind `nearest`, before everything too large is made infinite: on the scale `q` of the ratio `x`
the significand is the nearest integer. -/
structure RoundsOn (x : ℚ) (q : ℤ) (m : Nat) : Prop where
  least_scale : -1074 ≤ q
  scale_le : -1074 < q → 2 ^ 52 * 2 ^ q ≤ x
  below : x - 2 ^ q / 2 ≤ m * 2 ^ q
  above : m * 2 ^ q ≤ x + 2 ^ q / 2
  le_carry : m ≤ 2 * binade
  least : q = -1074 ∨ binade ≤ m

theorem nearest_roundsOn {num den : Nat} (hnum : 0 < num) (hden : 0 < den) :
    ∃ q m, nearest num den = min Coord.infinity ((q + 1074).toNat * binade + m) ∧ RoundsOn (num / den) q m := by
  obtain ⟨hlow, hhigh⟩ := floorLogTwo_bounds hnum hden
  generalize hq : max (floorLogTwo num den - 52) (-1074) = q
  have hpow : (0 : ℚ) < 2 ^ q := zpow_pos two_pos q
  have hratio : ((num * Nat.pow 2 (-q).toNat : Nat) : ℚ) / (den * Nat.pow 2 q.toNat : Nat) = num / den / 2 ^ q := by
    rw [zpow_eq_pow_div_pow, Nat.pow_eq, Nat.pow_eq]
    push_cast
    field_simp
  have hscaled : 0 < den * Nat.pow 2 q.toNat := Nat.mul_pos hden (Nat.pow_pos two_pos)
  obtain ⟨hbelow, habove⟩ := roundDiv_bounds (num * Nat.pow 2 (-q).toNat) hscaled
  rw [hratio] at hbelow habove
  generalize hm : roundDiv (num * Nat.pow 2 (-q).toNat) (den * Nat.pow 2 q.toNat) = m at hbelow habove
  have hscale : -1074 < q → (2 : ℚ) ^ 52 * 2 ^ q ≤ num / den := by
    intro h
    have hsum : (52 : ℕ) + q = floorLogTwo num den := by omega
    rw [← zpow_natCast, ← zpow_add₀ two_ne_zero, hsum]
    exact hlow
  have htop : (num : ℚ) / den < 2 ^ 53 * 2 ^ q := by
    refine hhigh.trans_le ?_
    rw [← zpow_natCast, ← zpow_add₀ two_ne_zero]
    exact zpow_le_zpow_right₀ one_le_two (by push_cast; omega)
  refine ⟨q, m, ?_, ⟨by omega, hscale, ?_, ?_, ?_, ?_⟩⟩
  · simp only [nearest, if_neg hnum.ne', hq, hm]
  · calc (num : ℚ) / den - 2 ^ q / 2 = (num / den / 2 ^ q - 1 / 2) * 2 ^ q := by field_simp
      _ ≤ m * 2 ^ q := by gcongr
  · calc (m : ℚ) * 2 ^ q ≤ (num / den / 2 ^ q + 1 / 2) * 2 ^ q := by gcongr
      _ = num / den + 2 ^ q / 2 := by field_simp
  · have hlt : (m : ℚ) < 2 ^ 53 + 1 := by
      have : (num : ℚ) / den / 2 ^ q < 2 ^ 53 := by rwa [div_lt_iff₀ hpow]
      linarith
    exact Nat.lt_succ_iff.mp (by exact_mod_cast hlt)
  · rcases (show -1074 ≤ q by omega).eq_or_lt with h | h
    · exact .inl h.symm
    · have hge : (2 : ℚ) ^ 52 < m + 1 := by
        have : (2 : ℚ) ^ 52 ≤ num / den / 2 ^ q := by
          rw [le_div_iff₀ hpow]
          exact hscale h
        linarith
      exact .inr (Nat.lt_succ_iff.mp (by exact_mod_cast hge))

namespace RoundsOn

variable {x : ℚ} {q : ℤ} {m : Nat}

theorem value_eq (h : RoundsOn x q m) : value ((q + 1074).toNat * binade + m) = m * 2 ^ q := by
  unfold value
  rcases packed_cases h.least_scale h.le_carry h.least with ⟨he, hs⟩ | ⟨he, hs, hm⟩
  · rw [he, hs]
  · rw [he, hs, hm, zpow_add_one₀ two_ne_zero]
    push_cast
    ring

theorem le_midpoint (h : RoundsOn x q m) : x ≤ midpoint ((q + 1074).toNat * binade + m) := by
  have hscale : (2 : ℚ) ^ q ≤ ulp ((q + 1074).toNat * binade + m) := by
    apply zpow_le_zpow_right₀ one_le_two
    rcases packed_cases h.least_scale h.le_carry h.least with ⟨he, -⟩ | ⟨he, -⟩ <;> omega
  rw [midpoint, h.value_eq]
  linarith [h.below]

theorem midpoint_le (h : RoundsOn x q m) {p : Nat} (hp : p < (q + 1074).toNat * binade + m) : midpoint p ≤ x := by
  obtain ⟨r, hr⟩ : ∃ r, r + 1 = (q + 1074).toNat * binade + m := ⟨_, Nat.succ_pred_eq_of_pos (by omega)⟩
  have hlast : value r + ulp r = m * 2 ^ q := by rw [← value_succ, hr, h.value_eq]
  refine (midpoint_mono (show p ≤ r by omega)).trans ?_
  unfold midpoint
  rcases before_packed h.least_scale h.least hr with hscale | ⟨hscale, hm⟩
  · have hulp : (2 : ℚ) ^ q ≤ ulp r := zpow_le_zpow_right₀ one_le_two hscale
    linarith [h.above]
  · -- at the foot of a scale the ratio is at least the value itself
    have hfoot : (m : ℚ) * 2 ^ q ≤ x := by
      rw [hm]
      exact_mod_cast h.scale_le hscale
    linarith [ulp_pos r]

/-- A whole number of units is not rounded. -/
theorem eq_of_units {n : Nat} (h : RoundsOn (n * 2 ^ q) q m) : m = n := by
  have hpow : (0 : ℚ) < 2 ^ q := zpow_pos two_pos q
  have hlow : (n : ℚ) < m + 1 := lt_of_mul_lt_mul_right (by linarith [h.below]) hpow.le
  have hhigh : (m : ℚ) < n + 1 := lt_of_mul_lt_mul_right (by linarith [h.above]) hpow.le
  have hlow : n < m + 1 := by exact_mod_cast hlow
  have hhigh : m < n + 1 := by exact_mod_cast hhigh
  omega

end RoundsOn

/-- A ratio between two powers of two bounds its scale. -/
theorem scale_le_of_lt {x : ℚ} {q k : ℤ} (hle : 2 ^ 52 * 2 ^ q ≤ x) (hlt : x < 2 ^ (k + 53)) : q ≤ k := by
  have hpow : (2 : ℚ) ^ (52 + q) < 2 ^ (k + 53) := by
    rw [zpow_add₀ two_ne_zero]
    exact lt_of_le_of_lt (by exact_mod_cast hle) hlt
  have := (zpow_lt_zpow_iff_right₀ one_lt_two).mp hpow
  omega

variable {num den : Nat} {p : Nat}

theorem nearest_le_of_lt_midpoint (hden : 0 < den) (h : (num : ℚ) / den < midpoint p) : nearest num den ≤ p := by
  rcases num.eq_zero_or_pos with rfl | hnum
  · exact Nat.zero_le p
  · obtain ⟨q, m, hnearest, hround⟩ := nearest_roundsOn hnum hden
    by_contra hlt
    exact absurd (hround.midpoint_le (p := p) (by omega)) (not_le.mpr h)

theorem lt_nearest_of_midpoint_lt (hden : 0 < den) (hp : p < Coord.infinity) (h : midpoint p < (num : ℚ) / den) :
    p < nearest num den := by
  rcases num.eq_zero_or_pos with rfl | hnum
  · have : midpoint p < 0 := by simpa using h
    linarith [value_nonneg p, value_lt_midpoint p]
  · obtain ⟨q, m, hnearest, hround⟩ := nearest_roundsOn hnum hden
    by_contra hle
    exact absurd (hround.le_midpoint.trans (midpoint_mono (show _ ≤ p by omega))) (not_le.mpr h)

theorem le_midpoint_of_nearest_eq (hden : 0 < den) (hp : p < Coord.infinity) (h : nearest num den = p) :
    (num : ℚ) / den ≤ midpoint p := by
  by_contra hlt
  exact absurd (lt_nearest_of_midpoint_lt hden hp (not_le.mp hlt)) (by omega)

theorem midpoint_le_of_lt_nearest (hden : 0 < den) (h : p < nearest num den) : midpoint p ≤ (num : ℚ) / den := by
  by_contra hlt
  exact absurd (nearest_le_of_lt_midpoint hden (not_le.mp hlt)) (by omega)

/-- A ratio strictly between the midpoints around a value rounds to that value. -/
theorem nearest_eq_of_between (hden : 0 < den) (hp : p ≤ Coord.infinity)
    (hbelow : ∀ r, r + 1 = p → midpoint r < (num : ℚ) / den) (habove : (num : ℚ) / den < midpoint p) :
    nearest num den = p := by
  refine Nat.le_antisymm (nearest_le_of_lt_midpoint hden habove) ?_
  rcases p.eq_zero_or_pos with rfl | hpos
  · exact Nat.zero_le _
  · have := lt_nearest_of_midpoint_lt (p := p - 1) hden (by omega) (hbelow _ (by omega))
    omega

theorem nearest_mul_left {c : Nat} (hc : 0 < c) (hden : 0 < den) : nearest (c * num) (c * den) = nearest num den := by
  rcases num.eq_zero_or_pos with rfl | hnum
  · simp [nearest]
  · have hscale : floorLogTwo (c * num) (c * den) = floorLogTwo num den := by
      obtain ⟨hle, hlt⟩ := floorLogTwo_bounds hnum hden
      have hratio : ((c * num : Nat) : ℚ) / (c * den : Nat) = num / den := by
        have hc' : (c : ℚ) ≠ 0 := by exact_mod_cast hc.ne'
        push_cast
        rw [mul_div_mul_left _ _ hc']
      apply floorLogTwo_unique (Nat.mul_pos hc hnum) (Nat.mul_pos hc hden) <;> rwa [hratio]
    simp only [nearest, hscale, if_neg hnum.ne', if_neg (Nat.mul_pos hc hnum).ne', Nat.mul_assoc, roundDiv_mul_left hc]

/-- Rounding depends on the ratio alone. -/
theorem nearest_congr {num' den' : Nat} (hden : 0 < den) (hden' : 0 < den') (h : (num : ℚ) / den = num' / den') :
    nearest num den = nearest num' den' := by
  have hcross : den' * num = den * num' := by
    have hne : (den : ℚ) ≠ 0 := by exact_mod_cast hden.ne'
    have hne' : (den' : ℚ) ≠ 0 := by exact_mod_cast hden'.ne'
    rw [div_eq_div_iff hne hne'] at h
    rw [Nat.mul_comm den', Nat.mul_comm den]
    exact_mod_cast h
  rw [← nearest_mul_left hden' hden, hcross, Nat.mul_comm den', nearest_mul_left hden hden']

end Polypath.Decimal
