import Mathlib.Data.List.TakeWhile
import Polypath.Decimal.Layout
import Polypath.Proofs.Decimal.Scaling

/-!
# How a number is spelled

A spelling is a numeral before its characters are read as digits: sign, whole part, fraction and exponent. Reading a
spelling gathers a word and a power of ten (`Spelling.real?_numeral`), which together are the decimal that was laid out
(`Layout.spell_value`). Hence a number that is written shortest and read again is at most two patterns away from
what it was (`Layout.scale_spell_near`), and it is the same if its decimal is short (`Layout.scale_spell_exact`).
-/

namespace Polypath.Decimal

/-! ## Digits -/

/-- The values of digit characters. -/
def digitValues (ds : List Char) : List Nat := ds.map fun c => c.toNat - '0'.toNat

/-- One or more digits. -/
def IsDigits (ds : List Char) : Prop := ds ≠ [] ∧ ∀ c ∈ ds, c.isDigit = true

theorem ofDigits_digitValues (ds : List Char) : ofDigits (digitValues ds) = Nat.ofDigitChars 10 ds 0 := by
  rw [Nat.ofDigitChars_eq_foldl, ofDigits, digitValues, List.foldl_map]

theorem le_ofDigitChars (ds : List Char) (n : Nat) : n ≤ Nat.ofDigitChars 10 ds n := by
  rw [Nat.ofDigitChars_eq_ofDigitChars_zero]
  have : 1 * n ≤ 10 ^ ds.length * n := Nat.mul_le_mul_right n (Nat.one_le_pow _ _ (by decide))
  omega

theorem ofDigitChars_lt {ds : List Char} (h : ∀ c ∈ ds, c.isDigit = true) :
    Nat.ofDigitChars 10 ds 0 < 10 ^ ds.length := by
  induction ds using List.reverseRecOn with
  | nil => simp
  | append_singleton ds c ih =>
    have hc : c.toNat - '0'.toNat < 10 := by
      have := h c (by simp)
      simp only [Char.isDigit, Bool.and_eq_true, decide_eq_true_eq] at this
      have hle : c.toNat ≤ '9'.toNat := this.2
      have : '9'.toNat = 57 ∧ '0'.toNat = 48 := by decide
      omega
    have hds := ih fun c hc => h c (by simp [hc])
    rw [Nat.ofDigitChars_append, Nat.ofDigitChars_cons, Nat.ofDigitChars_nil, List.length_append, List.length_singleton,
      Nat.pow_succ]
    omega

/-- Digits that write a number below `2 ^ 64` are all gathered. -/
theorem absorb_digitValues {ds : List Char} {n : Nat} (h : Nat.ofDigitChars 10 ds n < UInt64.size) :
    absorb n (digitValues ds) = (Nat.ofDigitChars 10 ds n, []) := by
  induction ds generalizing n with
  | nil => rfl
  | cons c ds ih =>
    rw [Nat.ofDigitChars_cons] at h ⊢
    have hfits : 10 * n + (c.toNat - '0'.toNat) < UInt64.size := (le_ofDigitChars ds _).trans_lt h
    rw [← ih h]
    exact if_pos hfits

theorem head?_toDigits_ne {n : Nat} (hn : 0 < n) : (Nat.toDigits 10 n).head? ≠ some '0' := by
  induction n using Nat.strongRecOn with
  | ind n ih =>
    rcases Nat.lt_or_ge n 10 with hlt | hge
    · rw [Nat.toDigits_of_lt_base hlt, List.head?_cons, ne_eq, Option.some_inj, Nat.digitChar_eq_zero]
      omega
    · rw [Nat.toDigits_of_base_le (by decide) hge, List.head?_append_of_ne_nil _ Nat.toDigits_ne_nil]
      exact ih (n / 10) (by omega) (by omega)

theorem isDigits_toDigits (n : Nat) : IsDigits (Nat.toDigits 10 n) :=
  ⟨Nat.toDigits_ne_nil, fun _ => Nat.isDigit_of_mem_toDigits (by decide) (by decide)⟩

/-! ## Decimals -/

namespace Figures

/-- The digits of a decimal as a number. -/
def number (d : Figures) : Nat := Nat.ofDigitChars 10 d.digits 0

/-- The power of ten at which the last digit stands. -/
def place (d : Figures) : ℤ := d.exponent + 1 - d.digits.length

/-- A decimal with digits of which the first is not zero. -/
structure Proper (d : Figures) : Prop where
  digits : IsDigits d.digits
  leading : d.digits.head? ≠ some '0'

end Figures

theorem eq_append_zeros (ds : List Char) :
    ∃ z, ds = (ds.reverse.dropWhile (· = '0')).reverse ++ List.replicate z '0' := by
  refine ⟨(ds.reverse.takeWhile (· = '0')).length, ?_⟩
  have hzeros : ds.reverse.takeWhile (· = '0') = List.replicate (ds.reverse.takeWhile (· = '0')).length '0' := by
    rw [List.eq_replicate_iff]
    exact ⟨rfl, fun c hc => by simpa using List.mem_takeWhile_imp hc⟩
  have hsplit := congrArg List.reverse (List.takeWhile_append_dropWhile (p := (· = '0')) (l := ds.reverse))
  rw [List.reverse_append, List.reverse_reverse] at hsplit
  rw [← List.reverse_replicate, ← hzeros, hsplit]

section Multiples

variable {n : Nat} (k : ℤ)

/-- The zeros that `ofMultiple` drops. -/
theorem ofMultiple_zeros (n : Nat) : ∃ z : Nat, Nat.toDigits 10 n = (ofMultiple n k).digits ++ List.replicate z '0' ∧
    n = 10 ^ z * (ofMultiple n k).number ∧ (ofMultiple n k).place = k + z := by
  obtain ⟨z, hz⟩ := eq_append_zeros (Nat.toDigits 10 n)
  refine ⟨z, hz, ?_, ?_⟩
  · conv_lhs => rw [← Nat.ofDigitChars_ten_toDigits (n := n), hz]
    rw [Nat.ofDigitChars_append, Nat.ofDigitChars_replicate_zero]
    rfl
  · have hlength : (Nat.toDigits 10 n).length = (ofMultiple n k).digits.length + z := by
      conv_lhs => rw [hz]
      rw [List.length_append, List.length_replicate]
      rfl
    have hexponent : (ofMultiple n k).exponent = k + (Nat.toDigits 10 n).length - 1 := rfl
    rw [Figures.place, hexponent, hlength]
    omega

theorem ofMultiple_proper (hn : 0 < n) : (ofMultiple n k).Proper := by
  obtain ⟨z, hz, hnumber, -⟩ := ofMultiple_zeros k n
  have hne : (ofMultiple n k).digits ≠ [] := by
    intro hnil
    rw [Figures.number, hnil, Nat.ofDigitChars_nil, Nat.mul_zero] at hnumber
    omega
  refine ⟨⟨hne, fun c hc => (isDigits_toDigits n).2 c ?_⟩, ?_⟩
  · rw [hz]
    exact List.mem_append_left _ hc
  · have hhead := head?_toDigits_ne hn
    rwa [hz, List.head?_append_of_ne_nil _ hne] at hhead

theorem ofMultiple_value (n : Nat) : (ofMultiple n k).number ≤ n ∧
    ((ofMultiple n k).number : ℚ) * 10 ^ (ofMultiple n k).place = n * 10 ^ k := by
  obtain ⟨z, -, hnumber, hplace⟩ := ofMultiple_zeros k n
  constructor
  · conv_rhs => rw [hnumber]
    exact Nat.le_mul_of_pos_left _ (Nat.pow_pos (by decide))
  · have hcast : (n : ℚ) = 10 ^ z * (ofMultiple n k).number := by exact_mod_cast hnumber
    rw [hplace, zpow_add₀ (by norm_num), zpow_natCast, hcast]
    ring

end Multiples

/-- The shortest decimal of a positive finite number: seventeen digits at the most, and it reads back. -/
theorem shortest_spec {p : Nat} (hp : 0 < p) (hfinite : p < Coord.infinity) :
    (shortest p).Proper ∧ (shortest p).number ≤ 10 ^ 17 ∧
      readsBack p (shortest p).number (shortest p).place = true := by
  obtain ⟨n, k, hshortest, hread, hle⟩ := shortest_eq_ofMultiple hp hfinite
  obtain ⟨hnumber, hvalue⟩ := ofMultiple_value k n
  rw [hshortest]
  exact ⟨ofMultiple_proper k (pos_of_readsBack hp hread), hnumber.trans hle, readsBack_of_eq hvalue hread⟩

/-! ## Spellings -/

/-- The characters of a numeral, part by part; of the exponent whether it is negative, and its digits. -/
structure Spelling where
  negative : Bool
  whole : List Char
  fraction : Option (List Char)
  exponent : Option (Bool × List Char)
deriving DecidableEq, Repr

namespace Spelling

/-- The fraction with its point, if there is one. -/
def fractionText (s : Spelling) : List Char := s.fraction.elim [] ('.' :: ·)

/-- The exponent with its mark and its sign, if there is one. -/
def exponentText (s : Spelling) : List Char := s.exponent.elim [] fun e => 'e' :: (if e.1 then '-' else '+') :: e.2

/-- The text of a spelling. -/
def text (s : Spelling) : List Char :=
  (if s.negative then ['-'] else []) ++ (s.whole ++ (s.fractionText ++ s.exponentText))

/-- The numeral that is spelled. -/
def numeral (s : Spelling) : Numeral where
  negative := s.negative
  whole := digitValues s.whole
  fraction := s.fraction.map digitValues
  exponent := s.exponent.map fun e => (e.1, digitValues e.2)

/-- All digits before the exponent as one number. -/
def word (s : Spelling) : Nat := Nat.ofDigitChars 10 (s.whole ++ s.fraction.getD []) 0

/-- The power of ten by which the word is scaled. -/
def power (s : Spelling) : ℤ := s.numeral.writtenExponent - (s.fraction.getD []).length

/-- A whole part without a leading zero, and digits wherever digits have to stand. -/
structure Proper (s : Spelling) : Prop where
  whole : IsDigits s.whole
  leading : s.whole = ['0'] ∨ s.whole.head? ≠ some '0'
  fraction : ∀ ds ∈ s.fraction, IsDigits ds
  exponent : ∀ e ∈ s.exponent, IsDigits e.2

theorem real?_numeral (s : Spelling) (h : s.word < UInt64.size) :
    s.numeral.real? = (scale (nearest s.word 1) s.power).map (Coord.ofParts s.negative) := by
  have hword : s.word = Nat.ofDigitChars 10 (s.fraction.getD []) (Nat.ofDigitChars 10 s.whole 0) :=
    Nat.ofDigitChars_append 0
  have hwhole : Nat.ofDigitChars 10 s.whole 0 < UInt64.size := (le_ofDigitChars _ _).trans_lt (hword ▸ h)
  have hfraction : s.numeral.fraction.getD [] = digitValues (s.fraction.getD []) := by
    cases hf : s.fraction <;> simp [numeral, hf, digitValues]
  have hpower : (([] : List Nat).length : ℤ) -
      ((digitValues (s.fraction.getD [])).length - ([] : List Nat).length : Nat) + s.numeral.writtenExponent =
        s.power := by
    simp only [power, digitValues, List.length_map, List.length_nil]
    omega
  rw [hword] at h
  simp only [Numeral.real?, hfraction, show s.numeral.whole = digitValues s.whole from rfl, absorb_digitValues hwhole,
    absorb_digitValues h, hpower]
  rw [hword]
  rfl

theorem writtenExponent_toDigits (negative : Bool) (whole : List Char) (fraction : Option (List Char)) (e : ℤ) :
    (numeral ⟨negative, whole, fraction, some (decide (e < 0), Nat.toDigits 10 e.natAbs)⟩).writtenExponent = e := by
  have hdigits : ofDigits (digitValues (Nat.toDigits 10 e.natAbs)) = e.natAbs := by
    rw [ofDigits_digitValues, Nat.ofDigitChars_ten_toDigits]
  by_cases hneg : e < 0
  · simp only [hneg, decide_true, numeral, Option.map_some, Numeral.writtenExponent, hdigits]
    omega
  · simp only [hneg, decide_false, numeral, Option.map_some, Numeral.writtenExponent, hdigits]
    omega

/-- A spelling with a fraction or an exponent is read as a binary64 number. -/
theorem value?_numeral {s : Spelling} (h : s.fraction.isSome = true ∨ s.exponent.isSome = true) :
    s.numeral.value? = s.numeral.real?.map .real := by
  obtain ⟨negative, whole, fraction, exponent⟩ := s
  cases fraction with
  | some ds => rfl
  | none =>
    cases exponent with
    | some e => rfl
    | none => cases h <;> contradiction

end Spelling

/-! ## Layouts -/

namespace Layout

/-- How a layout spells a decimal. -/
def spell (layout : Layout) (negative : Bool) (d : Figures) : Spelling :=
  if layout.least ≤ d.exponent ∧ d.exponent ≤ layout.greatest then
    if 0 ≤ d.exponent then
      let whole := d.exponent.toNat + 1
      let fraction := d.digits.drop whole
      ⟨negative, d.digits.take whole ++ List.replicate (whole - d.digits.length) '0',
        some (if fraction.isEmpty then ['0'] else fraction), none⟩
    else ⟨negative, ['0'], some (List.replicate ((-d.exponent).toNat - 1) '0' ++ d.digits), none⟩
  else
    let fraction := d.digits.drop 1
    ⟨negative, d.digits.take 1, if fraction.isEmpty then none else some fraction,
      some (decide (d.exponent < 0), Nat.toDigits 10 d.exponent.natAbs)⟩

variable (layout : Layout) (negative : Bool) {d : Figures}

theorem text_spell (d : Figures) :
    (layout.spell negative d).text = if negative then '-' :: layout.render d else layout.render d := by
  have hsign : ∀ t : List Char, (if negative then ['-'] else []) ++ t = if negative then '-' :: t else t := by
    cases negative <;> simp
  unfold Spelling.text
  rw [show (layout.spell negative d).negative = negative by unfold spell; split_ifs <;> rfl, hsign]
  suffices (layout.spell negative d).whole ++ ((layout.spell negative d).fractionText ++
      (layout.spell negative d).exponentText) = layout.render d by rw [this]
  unfold spell render
  split_ifs with hrange hwhole
  · simp [positional, hwhole, Spelling.fractionText, Spelling.exponentText]
  · simp [positional, hwhole, Spelling.fractionText, Spelling.exponentText]
  · simp only [scientific, Spelling.fractionText, Spelling.exponentText, Option.elim_some, decide_eq_true_eq]
    split_ifs <;> simp

theorem proper_spell (hd : d.Proper) : (layout.spell negative d).Proper := by
  obtain ⟨⟨hne, hdigits⟩, hleading⟩ := hd
  obtain ⟨c, cs, hcons⟩ := List.exists_cons_of_ne_nil hne
  have hzeros : ∀ m, ∀ c ∈ List.replicate m '0', c.isDigit = true := by
    intro m c hc
    rw [List.eq_of_mem_replicate hc]
    rfl
  have htake : ∀ m, ∀ c ∈ d.digits.take m, c.isDigit = true := fun m c hc => hdigits c (List.mem_of_mem_take hc)
  have hdrop : ∀ m, ∀ c ∈ d.digits.drop m, c.isDigit = true := fun m c hc => hdigits c (List.mem_of_mem_drop hc)
  have hfront : ∀ m, d.digits.take (m + 1) ≠ [] ∧ (d.digits.take (m + 1)).head? ≠ some '0' := by
    intro m
    rw [hcons] at hleading ⊢
    exact ⟨by simp, by simpa using hleading⟩
  unfold spell
  split_ifs with hrange hwhole
  · -- digits on both sides of the point
    refine ⟨⟨?_, ?_⟩, .inr ?_, ?_, ?_⟩
    · exact List.append_ne_nil_of_left_ne_nil (hfront _).1 _
    · intro c hc
      rcases List.mem_append.mp hc with hc | hc
      · exact htake _ c hc
      · exact hzeros _ c hc
    · rw [List.head?_append_of_ne_nil _ (hfront _).1]
      exact (hfront _).2
    · rintro ds ⟨⟩
      split_ifs with hempty
      · exact ⟨by simp, hzeros 1⟩
      · exact ⟨by simpa using hempty, hdrop _⟩
    · rintro e ⟨⟩
  · -- zeros first
    refine ⟨⟨by simp, hzeros 1⟩, .inl rfl, ?_, ?_⟩
    · rintro ds ⟨⟩
      refine ⟨List.append_ne_nil_of_right_ne_nil _ hne, fun c hc => ?_⟩
      rcases List.mem_append.mp hc with hc | hc
      · exact hzeros _ c hc
      · exact hdigits c hc
    · rintro e ⟨⟩
  · -- one digit before the point
    refine ⟨⟨(hfront 0).1, htake 1⟩, .inr (hfront 0).2, ?_, ?_⟩
    · intro ds hds
      simp only at hds
      split_ifs at hds with hempty
      · cases hds
      · cases hds
        exact ⟨by simpa using hempty, hdrop 1⟩
    · rintro e ⟨⟩
      exact isDigits_toDigits _

/-- A spelling has the digits of the decimal and no others, up to zeros in front, unless it is positional and all digits
stand before the point: then zeros lead up to the point, and one stands behind it. -/
theorem spell_cases (hd : d.digits ≠ []) :
    (layout.spell negative d).word = d.number ∧ (layout.spell negative d).power = d.place ∨
      (d.exponent ≤ layout.greatest ∧ d.digits.length ≤ d.exponent + 1) ∧
        (layout.spell negative d).word = d.number * 10 ^ (d.exponent.toNat + 2 - d.digits.length) ∧
          (layout.spell negative d).power = -1 := by
  have hpos : 0 < d.digits.length := List.length_pos_iff.mpr hd
  unfold spell Spelling.word Spelling.power Figures.number Figures.place
  split_ifs with hrange hwhole
  · rcases Nat.lt_or_ge (d.exponent.toNat + 1) d.digits.length with hlt | hle
    · left
      have hne : d.digits.drop (d.exponent.toNat + 1) ≠ [] := by simpa using hlt
      constructor
      · simp only [List.isEmpty_eq_false_iff.mpr hne, Nat.sub_eq_zero_of_le hlt.le, Option.getD_some,
          List.replicate_zero, List.append_nil, Bool.false_eq_true, if_false, List.take_append_drop]
      · simp only [List.isEmpty_eq_false_iff.mpr hne, Option.getD_some, Bool.false_eq_true, if_false, List.length_drop]
        exact show (0 : ℤ) - _ = _ by omega
    · right
      refine ⟨⟨hrange.2, by omega⟩, ?_, ?_⟩
      · have hzeros : d.exponent.toNat + 2 - d.digits.length = d.exponent.toNat + 1 - d.digits.length + 1 := by omega
        simp only [List.drop_eq_nil_of_le hle, List.take_of_length_le hle, List.isEmpty_nil, if_true, Option.getD_some,
          Nat.ofDigitChars_append, Nat.ofDigitChars_replicate_zero, Nat.ofDigitChars_cons, Nat.ofDigitChars_nil, hzeros,
          Nat.pow_succ, Nat.sub_self, Nat.add_zero]
        ring
      · simp only [List.drop_eq_nil_of_le hle, List.isEmpty_nil, if_true, Option.getD_some]
        rfl
  · left
    constructor
    · simp only [Option.getD_some, List.singleton_append, Nat.ofDigitChars_cons, Nat.ofDigitChars_append,
        Nat.ofDigitChars_replicate_zero]
      rfl
    · simp only [Option.getD_some, List.length_append, List.length_replicate]
      exact show (0 : ℤ) - _ = _ by omega
  · left
    have hfraction :
        (if (d.digits.drop 1).isEmpty then none else some (d.digits.drop 1)).getD [] = d.digits.drop 1 := by
      split_ifs with hempty
      · exact (List.isEmpty_iff.mp hempty).symm
      · rfl
    constructor
    · simp only [hfraction, List.take_append_drop]
    · simp only [hfraction, Spelling.writtenExponent_toDigits, List.length_drop]
      omega

/-- The word and the power of a spelling are the decimal. -/
theorem spell_value (hd : d.digits ≠ []) :
    ((layout.spell negative d).word : ℚ) * 10 ^ (layout.spell negative d).power = d.number * 10 ^ d.place := by
  rcases layout.spell_cases negative hd with ⟨hword, hpower⟩ | ⟨⟨-, hwhole⟩, hword, hpower⟩
  · rw [hword, hpower]
  · have hpos : 0 < d.digits.length := List.length_pos_iff.mpr hd
    rw [hword, hpower, Nat.cast_mul, Nat.cast_pow, mul_assoc, Nat.cast_ofNat, ← zpow_natCast,
      ← zpow_add₀ (by norm_num : (10 : ℚ) ≠ 0), Figures.place]
    congr 2
    omega

section Restoring

variable {layout} (hlayout : layout.greatest ≤ 15) {p : Nat} (hp : 0 < p) (hfinite : p < Coord.infinity)
include hlayout

theorem word_spell_le (hd : d.Proper) (hnumber : d.number ≤ 10 ^ 17) : (layout.spell negative d).word ≤ 10 ^ 17 := by
  rcases layout.spell_cases negative hd.digits.1 with ⟨hword, -⟩ | ⟨⟨hle, hwhole⟩, hword, -⟩
  · rw [hword]
    exact hnumber
  · calc (layout.spell negative d).word = d.number * 10 ^ (d.exponent.toNat + 2 - d.digits.length) := hword
      _ ≤ 10 ^ d.digits.length * 10 ^ (d.exponent.toNat + 2 - d.digits.length) :=
        Nat.mul_le_mul_right _ (ofDigitChars_lt hd.digits.2).le
      _ = 10 ^ (d.exponent.toNat + 2) := by rw [← Nat.pow_add, Nat.add_sub_cancel' (by omega)]
      _ ≤ 10 ^ 17 := Nat.pow_le_pow_right (by decide) (by omega)

include hp hfinite

/-- A number that is written shortest and read again is found at most two patterns away. -/
theorem scale_spell_near :
    ∃ r, scale (nearest (layout.spell negative (shortest p)).word 1) (layout.spell negative (shortest p)).power =
      some r ∧ r < Coord.infinity ∧ r ≤ p + 2 ∧ p ≤ r + 2 := by
  obtain ⟨hproper, hnumber, hread⟩ := shortest_spec hp hfinite
  rcases Nat.lt_or_ge (p + 2) Coord.infinity with hlt | hge
  · obtain ⟨r, hscale, hle, hge⟩ := scale_near hp hlt (word_spell_le negative hlayout hproper hnumber)
      (readsBack_of_eq (layout.spell_value negative hproper.digits.1) hread)
    exact ⟨r, hscale, by omega, hle, hge⟩
  · -- the two greatest numbers, which a step upwards would make infinite
    have hscientific : (shortest p).exponent = 308 → (layout.spell negative (shortest p)).word = (shortest p).number ∧
        (layout.spell negative (shortest p)).power = (shortest p).place := by
      intro hexponent
      rcases layout.spell_cases negative hproper.digits.1 with h | ⟨⟨hle, -⟩, -⟩
      · exact h
      · omega
    obtain rfl | rfl : p = 0x7feffffffffffffe ∨ p = 0x7fefffffffffffff := by
      unfold Coord.infinity at *
      omega
    all_goals
      obtain ⟨hword, hpower⟩ := hscientific (by decide +kernel)
      rw [hword, hpower]
      exact ⟨0x7fefffffffffffff, by decide +kernel⟩

/-- A number with a short decimal, whose last digit does not stand too far from the point, is found again. The sixteen
digits before the point that a layout may write are too many for that. -/
theorem scale_spell_exact (hshort : (shortest p).digits.length ≤ 15) (hne : (shortest p).exponent ≠ 15)
    (hlow : -22 ≤ (shortest p).place) (hhigh : (shortest p).place ≤ 22) :
    scale (nearest (layout.spell negative (shortest p)).word 1) (layout.spell negative (shortest p)).power =
      some p := by
  obtain ⟨hproper, -, hread⟩ := shortest_spec hp hfinite
  have hspelled := readsBack_of_eq (layout.spell_value negative hproper.digits.1) hread
  have hnumber : (shortest p).number < 10 ^ (shortest p).digits.length := ofDigitChars_lt hproper.digits.2
  rcases layout.spell_cases negative hproper.digits.1 with ⟨hword, hpower⟩ | ⟨⟨hle, hwhole⟩, hword, hpower⟩
  · rw [hword, hpower]
    have hfits : (shortest p).number < 2 ^ 53 :=
      hnumber.trans ((Nat.pow_le_pow_right (by decide) hshort).trans_lt (by decide))
    exact scale_exact hp hfinite (value_nearest_of_lt hfits) hlow hhigh hread
  · -- the zero behind the point gives the word a factor of two
    apply scale_exact hp hfinite ?_ (by omega) (by omega) hspelled
    have hzeros : (shortest p).exponent.toNat + 2 - (shortest p).digits.length =
        (shortest p).exponent.toNat + 1 - (shortest p).digits.length + 1 := by omega
    have hwords : (layout.spell negative (shortest p)).word =
        5 * ((shortest p).number * 10 ^ ((shortest p).exponent.toNat + 1 - (shortest p).digits.length)) * 2 ^ 1 := by
      rw [hword, hzeros, Nat.pow_succ]
      ring
    rw [hwords]
    apply value_nearest_of_dyadic _ (by decide)
    calc 5 * ((shortest p).number * 10 ^ ((shortest p).exponent.toNat + 1 - (shortest p).digits.length))
        ≤ 5 * (10 ^ (shortest p).digits.length *
            10 ^ ((shortest p).exponent.toNat + 1 - (shortest p).digits.length)) := by gcongr
      _ = 5 * 10 ^ ((shortest p).exponent.toNat + 1) := by rw [← Nat.pow_add, Nat.add_sub_cancel' (by omega)]
      _ ≤ 5 * 10 ^ 15 := Nat.mul_le_mul_left 5 (Nat.pow_le_pow_right (by decide) (by omega))
      _ < 2 ^ 53 := by decide

end Restoring

end Layout

end Polypath.Decimal
