import Polypath.Json.Printer
import Polypath.Json.Record
import Polypath.Proofs.Decimal.Spelling
import Polypath.Proofs.Outcome

/-!
# Reading printed numbers

A writing of a numeral that ends where a number has to end is read part by part into it (`readNumeral_append`), and
only a writing is (`readNumeral_eq_ok`). Integers come back as they were printed (`readWord_toDigits`), and every finite
coordinate comes back as the coordinate `reread` (`readCoord_coordText`): it has the same sign, it is at most two
patterns away, and it is the same if its decimal is short (`restores_reread`).
-/

namespace Polypath

namespace Coord

variable {negative : Bool} {m : Nat}

theorem toNat_ofParts (hm : m < signBit) :
    (ofParts negative m).bits.toNat = if negative then signBit + m else m := by
  unfold ofParts
  rw [UInt64.toNat_ofNat_of_lt']
  unfold signBit at *
  split <;> simp only [UInt64.size] <;> omega

theorem magnitude_ofParts (hm : m < signBit) : (ofParts negative m).magnitude = m := by
  rw [magnitude, toNat_ofParts hm]
  unfold signBit at *
  split <;> omega

theorem isNegative_ofParts (hm : m < signBit) : (ofParts negative m).isNegative = negative := by
  rw [isNegative, toNat_ofParts hm]
  cases negative <;> simp [hm]

theorem ofParts_parts (c : Coord) : ofParts c.isNegative c.magnitude = c := by
  have hlt : c.bits.toNat < 2 * signBit := c.bits.toNat_lt
  have hm : c.magnitude < signBit := Nat.mod_lt _ (by decide)
  have hbits : (ofParts c.isNegative c.magnitude).bits = c.bits := by
    rw [← UInt64.toNat_inj, toNat_ofParts hm]
    unfold isNegative magnitude signBit at *
    simp only [decide_eq_true_eq]
    split <;> omega
  exact congrArg Coord.mk hbits

end Coord

namespace Json

open Decimal

/-! ## Digits and space -/

/-- Whether a text does not continue a number. -/
def endsNumber (rest : List Char) : Bool := rest.head?.all fun c => !c.isDigit && c != '.' && c != 'e' && c != 'E'

section Digits

variable {ds rest : List Char} (cut : Fault)

theorem takeWhile_of_startsWithDigit (h : startsWithDigit rest = false) : rest.takeWhile Char.isDigit = [] := by
  cases rest with
  | nil => rfl
  | cons c r =>
    have hc : c.isDigit = false := h
    rw [List.takeWhile_cons, hc]
    rfl

theorem digitsOf_append (hds : ∀ c ∈ ds, c.isDigit = true) (hrest : startsWithDigit rest = false) :
    digitsOf (ds ++ rest) = digitValues ds := by
  rw [digitsOf, List.takeWhile_append_of_pos hds, takeWhile_of_startsWithDigit hrest, List.append_nil]
  rfl

theorem afterDigits_append (hds : ∀ c ∈ ds, c.isDigit = true) (hrest : startsWithDigit rest = false) :
    afterDigits (ds ++ rest) = rest := by
  have hnone := takeWhile_of_startsWithDigit hrest
  rw [afterDigits, List.dropWhile_append_of_pos hds]
  conv_rhs => rw [← List.takeWhile_append_dropWhile (p := Char.isDigit) (l := rest), hnone]
  rfl

theorem readDigits_append (hds : IsDigits ds) (hrest : startsWithDigit rest = false) :
    readDigits cut (ds ++ rest) = .ok (digitValues ds, rest) := by
  have hstart : startsWithDigit (ds ++ rest) = true := by
    obtain ⟨c, cs, rfl⟩ := List.exists_cons_of_ne_nil hds.1
    exact hds.2 c (List.mem_cons_self)
  rw [readDigits, if_pos hstart, digitsOf_append hds.2 hrest, afterDigits_append hds.2 hrest]

theorem readWhole_append (hds : IsDigits ds) (hleading : ds = ['0'] ∨ ds.head? ≠ some '0')
    (hrest : startsWithDigit rest = false) : readWhole cut (ds ++ rest) = .ok (digitValues ds, rest) := by
  rcases hleading with rfl | hleading
  · rw [List.singleton_append, readWhole, hrest]
    rfl
  · obtain ⟨c, cs, rfl⟩ := List.exists_cons_of_ne_nil hds.1
    have hc : c ≠ '0' := by simpa using hleading
    rw [← readDigits_append cut hds hrest]
    unfold readWhole
    split
    next heq => exact absurd (List.cons.inj heq).1 hc
    next => rfl

theorem skipSpace_append {gap : List Char} (hgap : ∀ c ∈ gap, isSpace c = true) (s : List Char) :
    skipSpace (gap ++ s) = skipSpace s := List.dropWhile_append_of_pos hgap

theorem skipSpace_cons {c : Char} (hc : isSpace c = false) (s : List Char) : skipSpace (c :: s) = c :: s :=
  List.dropWhile_cons_of_neg (by simp [hc])

theorem skipSpace_eq_nil {gap : List Char} (hgap : ∀ c ∈ gap, isSpace c = true) : skipSpace gap = [] := by
  have h := skipSpace_append hgap []
  rwa [List.append_nil] at h

theorem skipSpace_gap {c : Char} {gap r : List Char} (hgap : ∀ c ∈ gap, isSpace c = true) (hc : isSpace c = false) :
    skipSpace (gap ++ (c :: r)) = c :: r := by
  rw [skipSpace_append hgap, skipSpace_cons hc]

end Digits

/-! ## Numerals -/

/-- The text writes the fraction of a numeral: a point and digits, or nothing. -/
inductive WritesFraction : List Char → Option (List Nat) → Prop where
  | absent : WritesFraction [] none
  | digits {ds : List Char} : IsDigits ds → WritesFraction ('.' :: ds) (some (digitValues ds))

/-- The text writes the exponent of a numeral: a mark, a sign or none, and digits, or nothing at all. -/
inductive WritesExponent : List Char → Option (Bool × List Nat) → Prop where
  | absent : WritesExponent [] none
  | unsigned {mark : Char} {ds : List Char} : mark = 'e' ∨ mark = 'E' → IsDigits ds →
      WritesExponent (mark :: ds) (some (false, digitValues ds))
  | signed {mark : Char} {ds : List Char} (negative : Bool) : mark = 'e' ∨ mark = 'E' → IsDigits ds →
      WritesExponent (mark :: (if negative then '-' else '+') :: ds) (some (negative, digitValues ds))

/-- The text writes the numeral: a minus sign or none, digits that do not start with a zero unless they are a single
one, and a fraction and an exponent if there are any. -/
inductive WritesNumeral : List Char → Numeral → Prop where
  | parts {negative : Bool} {whole fraction exponent : List Char} {f : Option (List Nat)}
      {e : Option (Bool × List Nat)} : IsDigits whole → whole = ['0'] ∨ whole.head? ≠ some '0' →
      WritesFraction fraction f → WritesExponent exponent e →
      WritesNumeral ((if negative then ['-'] else []) ++ (whole ++ (fraction ++ exponent)))
        ⟨negative, digitValues whole, f, e⟩

section Numerals

variable {s raw fraction exponent rest : List Char} {n : Numeral} {f : Option (List Nat)}
  {e : Option (Bool × List Nat)} (cut : Fault)

theorem startsWithDigit_of_endsNumber (h : endsNumber rest = true) : startsWithDigit rest = false := by
  cases rest with
  | nil => rfl
  | cons c r =>
    simp only [endsNumber, List.head?_cons, Option.all_some, Bool.and_eq_true, Bool.not_eq_true'] at h
    exact h.1.1.1

theorem startsWithDigit_append {ds : List Char} (h : IsDigits ds) (r : List Char) :
    startsWithDigit (ds ++ r) = true := by
  obtain ⟨c, cs, rfl⟩ := List.exists_cons_of_ne_nil h.1
  exact h.2 c List.mem_cons_self

theorem isDigit_mark {mark : Char} (h : mark = 'e' ∨ mark = 'E') : mark.isDigit = false ∧ mark ≠ '.' := by
  rcases h with rfl | rfl <;> exact ⟨rfl, by decide⟩

/-- Neither an exponent nor the end of a number continues digits or starts a fraction. -/
theorem WritesExponent.stops (he : WritesExponent exponent e) (h : endsNumber rest = true) :
    startsWithDigit (exponent ++ rest) = false ∧ (exponent ++ rest).head? ≠ some '.' := by
  cases he with
  | absent =>
    refine ⟨startsWithDigit_of_endsNumber h, ?_⟩
    intro hhead
    simp [endsNumber, show rest.head? = some '.' from hhead] at h
  | unsigned hmark hds | signed negative hmark hds =>
    refine ⟨(isDigit_mark hmark).1, ?_⟩
    intro hhead
    exact (isDigit_mark hmark).2 (Option.some.inj hhead)

theorem WritesFraction.stops (hf : WritesFraction fraction f) (he : WritesExponent exponent e)
    (h : endsNumber rest = true) : startsWithDigit (fraction ++ (exponent ++ rest)) = false := by
  cases hf with
  | absent => exact (he.stops h).1
  | digits hds => rfl

theorem readFraction_append (hf : WritesFraction fraction f) (hdigit : startsWithDigit rest = false)
    (hpoint : rest.head? ≠ some '.') : readFraction cut (fraction ++ rest) = .ok (f, rest) := by
  cases hf with
  | absent =>
    unfold readFraction
    split
    next heq => exact absurd (congrArg List.head? heq) hpoint
    next => rfl
  | digits hds => simp only [List.cons_append, readFraction, readDigits_append cut hds hdigit]

theorem exponentSign_of_startsWithDigit (h : startsWithDigit s = true) : exponentSign s = (false, s) := by
  unfold exponentSign
  split
  · exact absurd h (by simp [startsWithDigit])
  · exact absurd h (by simp [startsWithDigit])
  · rfl

theorem readExponent_append (he : WritesExponent exponent e) (h : endsNumber rest = true) :
    readExponent cut (exponent ++ rest) = .ok (e, rest) := by
  have hdigit := startsWithDigit_of_endsNumber h
  cases he with
  | absent =>
    cases rest with
    | nil => rfl
    | cons c r =>
      have hc : ¬ (c = 'e' ∨ c = 'E') := by
        rintro (rfl | rfl) <;> simp [endsNumber] at h
      simp only [List.nil_append, readExponent, if_neg hc]
  | @unsigned mark ds hmark hds =>
    simp only [List.cons_append, readExponent, if_pos hmark,
      exponentSign_of_startsWithDigit (startsWithDigit_append hds rest), readDigits_append cut hds hdigit]
  | @signed mark ds negative hmark hds =>
    have hsign : exponentSign ((if negative then '-' else '+') :: (ds ++ rest)) = (negative, ds ++ rest) := by
      cases negative <;> rfl
    simp only [List.cons_append, readExponent, if_pos hmark, hsign, readDigits_append cut hds hdigit]

theorem numberSign_append {negative : Bool} (h : startsWithDigit s = true) :
    numberSign ((if negative then ['-'] else []) ++ s) = (negative, s) := by
  cases negative with
  | true => rfl
  | false =>
    unfold numberSign
    split
    next heq =>
      rw [show s = _ from heq] at h
      exact absurd h (by simp [startsWithDigit])
    next => rfl

/-- A numeral is read from its writing, up to where the number ends. -/
theorem readNumeral_append (hn : WritesNumeral raw n) (h : endsNumber rest = true) :
    readNumeral cut (raw ++ rest) = .ok (n, rest) := by
  obtain ⟨hwhole, hleading, hfraction, hexponent⟩ := hn
  have hstops := hexponent.stops h
  have hread := readWhole_append cut hwhole hleading (hfraction.stops hexponent h)
  simp only [List.append_assoc, readNumeral, numberSign_append (startsWithDigit_append hwhole _), hread,
    readFraction_append cut hfraction hstops.1 hstops.2, readExponent_append cut hexponent h]

theorem ne_of_startsNumber {c d : Char} (hc : startsNumber c = true) (hd : startsNumber d = false) : c ≠ d := by
  rintro rfl
  rw [hc] at hd
  cases hd

theorem isSpace_of_startsNumber {c : Char} (h : startsNumber c = true) : isSpace c = false := by
  rw [Bool.eq_false_iff]
  intro hspace
  simp only [isSpace, Bool.or_eq_true, decide_eq_true_eq] at hspace
  obtain ((rfl | rfl) | rfl) | rfl := hspace <;> exact absurd h (by decide)

theorem WritesNumeral.starts (hn : WritesNumeral raw n) : ∃ c r, raw = c :: r ∧ startsNumber c = true := by
  obtain ⟨hwhole, -, -, -⟩ := hn
  rename_i negative whole _ _ _ _
  obtain ⟨d, ds, hcons⟩ := List.exists_cons_of_ne_nil hwhole.1
  have hdigit : d.isDigit = true := hwhole.2 d (by rw [hcons]; exact List.mem_cons_self)
  cases negative with
  | true => exact ⟨'-', _, rfl, rfl⟩
  | false =>
    refine ⟨d, _, by rw [hcons]; rfl, ?_⟩
    simp [startsNumber, hdigit]

/-- A number that is wanted is read from its writing if it is in range, with or without space before it. -/
theorem toOption_wantNumber {gap : List Char} (wanted : Wanted) (hgap : ∀ c ∈ gap, isSpace c = true)
    (hn : WritesNumeral raw n) (h : endsNumber rest = true) :
    (wantNumber wanted (gap ++ (raw ++ rest))).toOption = n.value?.map fun v => (v, rest) := by
  have hread : (readNumber (raw ++ rest)).toOption = n.value?.map fun v => (v, rest) := by
    rw [readNumber, readNumeral_append (.eof .value) hn h]
    cases hvalue : n.value? with
    | some v => simp only [hvalue]; rfl
    | none => simp only [hvalue]; rfl
  obtain ⟨c, r, hcons, hstart⟩ := hn.starts
  rw [hcons, List.cons_append] at hread ⊢
  rw [wantNumber, skipSpace_gap hgap (isSpace_of_startsNumber hstart)]
  simpa only [hstart, if_true] using hread

theorem wantNumber_append {gap : List Char} (wanted : Wanted) {v : Number} (hgap : ∀ c ∈ gap, isSpace c = true)
    (hn : WritesNumeral raw n) (hvalue : n.value? = some v) (h : endsNumber rest = true) :
    wantNumber wanted (gap ++ (raw ++ rest)) = .ok (v, rest) := by
  rw [← Outcome.toOption_eq_some_iff, toOption_wantNumber wanted hgap hn h, hvalue]
  rfl

/-- The text of a spelling writes its numeral. -/
theorem writesNumeral_text {s : Spelling} (hs : s.Proper) : WritesNumeral s.text s.numeral := by
  have hfraction : WritesFraction s.fractionText (s.fraction.map digitValues) := by
    unfold Spelling.fractionText
    cases hf : s.fraction with
    | none => exact .absent
    | some ds => exact .digits (hs.fraction ds hf)
  have hexponent : WritesExponent s.exponentText (s.exponent.map fun e => (e.1, digitValues e.2)) := by
    unfold Spelling.exponentText
    cases he : s.exponent with
    | none => exact .absent
    | some e => exact .signed e.1 (.inl rfl) (hs.exponent e he)
  exact .parts hs.whole hs.leading hfraction hexponent

end Numerals

section Written

variable {cut : Fault} {s r : List Char}

theorem readDigits_eq_ok {values : List Nat} (h : readDigits cut s = .ok (values, r)) :
    ∃ ds, s = ds ++ r ∧ IsDigits ds ∧ values = digitValues ds := by
  unfold readDigits at h
  split at h
  next hstart =>
    cases h
    refine ⟨s.takeWhile Char.isDigit, (List.takeWhile_append_dropWhile).symm, ⟨?_, ?_⟩, rfl⟩
    · intro hnil
      cases s with
      | nil => cases hstart
      | cons c t =>
        rw [List.takeWhile_cons, show c.isDigit = true from hstart] at hnil
        cases hnil
    · exact fun c hc => List.mem_takeWhile_imp hc
  next => cases h

theorem readWhole_eq_ok {values : List Nat} (h : readWhole cut s = .ok (values, r)) :
    ∃ ds, s = ds ++ r ∧ IsDigits ds ∧ (ds = ['0'] ∨ ds.head? ≠ some '0') ∧ values = digitValues ds := by
  unfold readWhole at h
  split at h
  next t =>
    split at h
    next => cases h
    next =>
      cases h
      exact ⟨['0'], rfl, ⟨List.cons_ne_nil _ _, List.forall_mem_singleton.mpr rfl⟩, .inl rfl, rfl⟩
  next hzero =>
    obtain ⟨ds, rfl, hds, rfl⟩ := readDigits_eq_ok h
    refine ⟨ds, rfl, hds, .inr ?_, rfl⟩
    intro hhead
    obtain ⟨t, rfl⟩ := List.head?_eq_some_iff.mp hhead
    exact hzero (t ++ r) rfl

theorem readFraction_eq_ok {f : Option (List Nat)} (h : readFraction cut s = .ok (f, r)) :
    ∃ fraction, s = fraction ++ r ∧ WritesFraction fraction f := by
  unfold readFraction at h
  split at h
  next t =>
    split at h
    next hdigits =>
      cases h
      obtain ⟨ds, rfl, hds, rfl⟩ := readDigits_eq_ok hdigits
      exact ⟨'.' :: ds, rfl, .digits hds⟩
    next => cases h
  next =>
    cases h
    exact ⟨[], rfl, .absent⟩

theorem readExponent_eq_ok {e : Option (Bool × List Nat)} (h : readExponent cut s = .ok (e, r)) :
    ∃ exponent, s = exponent ++ r ∧ WritesExponent exponent e := by
  unfold readExponent at h
  split at h
  next mark t =>
    split at h
    next hmark =>
      split at h
      next hdigits =>
        cases h
        obtain ⟨ds, hsplit, hds, rfl⟩ := readDigits_eq_ok hdigits
        unfold exponentSign at hsplit ⊢
        split at hsplit
        next => exact ⟨mark :: '+' :: ds, congrArg (mark :: '+' :: ·) hsplit, .signed false hmark hds⟩
        next => exact ⟨mark :: '-' :: ds, congrArg (mark :: '-' :: ·) hsplit, .signed true hmark hds⟩
        next => exact ⟨mark :: ds, congrArg (mark :: ·) hsplit, .unsigned hmark hds⟩
      next => cases h
    next =>
      cases h
      exact ⟨[], rfl, .absent⟩
  next =>
    cases h
    exact ⟨[], rfl, .absent⟩

theorem numberSign_spec (s : List Char) :
    s = (if (numberSign s).1 then ['-'] else []) ++ (numberSign s).2 := by
  unfold numberSign
  split <;> rfl

/-- What is taken for a numeral writes it. -/
theorem readNumeral_eq_ok {n : Numeral} (h : readNumeral cut s = .ok (n, r)) :
    ∃ raw, s = raw ++ r ∧ WritesNumeral raw n := by
  unfold readNumeral at h
  split at h
  next => cases h
  next hwhole =>
    split at h
    next => cases h
    next hfraction =>
      split at h
      next => cases h
      next hexponent =>
        cases h
        obtain ⟨whole, hsplit, hdigits, hleading, rfl⟩ := readWhole_eq_ok hwhole
        obtain ⟨fraction, rfl, hf⟩ := readFraction_eq_ok hfraction
        obtain ⟨exponent, rfl, he⟩ := readExponent_eq_ok hexponent
        refine ⟨_, ?_, .parts hdigits hleading hf he⟩
        conv_lhs => rw [numberSign_spec s, hsplit]
        simp only [List.append_assoc]

end Written

/-! ## Integers -/

theorem proper_toDigits (n : Nat) : (Spelling.mk false (Nat.toDigits 10 n) none none).Proper := by
  refine ⟨isDigits_toDigits n, ?_, ?_, ?_⟩
  · rcases n.eq_zero_or_pos with rfl | hn
    · exact .inl (Nat.toDigits_zero 10)
    · exact .inr (head?_toDigits_ne hn)
  · rintro ds ⟨⟩
  · rintro e ⟨⟩

/-- An integer comes back as it was printed. -/
theorem readWord_toDigits {gap rest : List Char} {bits n : Nat} (hgap : ∀ c ∈ gap, isSpace c = true)
    (hn : n < Nat.pow 2 bits) (hword : n < UInt64.size) (h : endsNumber rest = true) :
    readWord bits (gap ++ (Nat.toDigits 10 n ++ rest)) = .ok (n, rest) := by
  have htext : (Spelling.mk false (Nat.toDigits 10 n) none none).text = Nat.toDigits 10 n := List.append_nil _
  have hvalue : (Spelling.mk false (Nat.toDigits 10 n) none none).numeral.value? = some (.natural n) := by
    have habsorb : absorb 0 (digitValues (Nat.toDigits 10 n)) = (n, []) := by
      have hdigits := Nat.ofDigitChars_ten_toDigits (n := n)
      rw [absorb_digitValues (by rwa [hdigits]), hdigits]
    simp only [Spelling.numeral, Numeral.value?, Option.map_none, habsorb, Bool.not_false, if_true]
  have hread := wantNumber_append (.word bits) hgap (writesNumeral_text (proper_toDigits n)) hvalue h
  rw [htext] at hread
  simp only [readWord, hread, if_pos hn]

/-! ## Coordinates -/

/-- How a finite coordinate is spelled. -/
def spelling (c : Coord) : Spelling :=
  if c.magnitude = 0 then ⟨c.isNegative, ['0'], some ['0'], none⟩
  else numberLayout.spell c.isNegative (shortest c.magnitude)

/-- The coordinate that is read where a finite one was printed. -/
def reread (c : Coord) : Coord :=
  .ofParts c.isNegative ((scale (nearest (spelling c).word 1) (spelling c).power).getD 0)

/-- A coordinate whose decimal is zero, or has at most fifteen digits that end not too far from the point and do not
stand at the upper end of positional layout. -/
def HasShortDecimal (c : Coord) : Prop :=
  c.magnitude = 0 ∨
    ((shortest c.magnitude).digits.length ≤ 15 ∧ (shortest c.magnitude).exponent ≠ 15) ∧
      -22 ≤ (shortest c.magnitude).place ∧ (shortest c.magnitude).place ≤ 22

instance (c : Coord) : Decidable (HasShortDecimal c) := inferInstanceAs (Decidable (_ ∨ _))

/-- What printing and reading may make of a coordinate. -/
structure Restores (c d : Coord) : Prop where
  finite : d.isFinite = true
  sign : d.isNegative = c.isNegative
  above : d.magnitude ≤ c.magnitude + 2
  below : c.magnitude ≤ d.magnitude + 2
  short : HasShortDecimal c → d = c

section Coordinates

variable {c : Coord} (hc : c.isFinite = true)

theorem text_spelling (c : Coord) : (spelling c).text = finiteText c := by
  unfold spelling finiteText Layout.renderNumber
  split
  · cases c.isNegative <;> rfl
  · exact Layout.text_spell _ _ _

theorem negative_spelling (c : Coord) : (spelling c).negative = c.isNegative := by
  unfold spelling Layout.spell
  split_ifs <;> rfl

theorem isReal_spelling (c : Coord) : (spelling c).fraction.isSome = true ∨ (spelling c).exponent.isSome = true := by
  unfold spelling Layout.spell
  split_ifs <;> simp

include hc

theorem magnitude_lt_of_isFinite : c.magnitude < Coord.infinity := of_decide_eq_true hc

theorem proper_spelling : (spelling c).Proper := by
  unfold spelling
  split_ifs with hzero
  · refine ⟨⟨by simp, List.all_eq_true.mp rfl⟩, .inl rfl, ?_, ?_⟩
    · rintro ds ⟨⟩
      exact ⟨by simp, List.all_eq_true.mp rfl⟩
    · rintro e ⟨⟩
  · exact Layout.proper_spell _ _ (shortest_spec (Nat.pos_of_ne_zero hzero) (magnitude_lt_of_isFinite hc)).1

theorem word_spelling_lt : (spelling c).word < UInt64.size := by
  unfold spelling
  split_ifs with hzero
  · exact show 0 < UInt64.size by decide
  · obtain ⟨hproper, hnumber, -⟩ := shortest_spec (Nat.pos_of_ne_zero hzero) (magnitude_lt_of_isFinite hc)
    exact (Layout.word_spell_le _ (show numberLayout.greatest ≤ 15 by decide) hproper hnumber).trans_lt (by decide)

theorem scale_spelling : ∃ r, scale (nearest (spelling c).word 1) (spelling c).power = some r ∧
    r < Coord.infinity ∧ r ≤ c.magnitude + 2 ∧ c.magnitude ≤ r + 2 := by
  unfold spelling
  split_ifs with hzero
  · have hscale : scale (nearest 0 1) (-1) = some 0 := by decide +kernel
    exact ⟨0, hscale, by decide, by omega, by omega⟩
  · exact Layout.scale_spell_near _ (by decide) (Nat.pos_of_ne_zero hzero) (magnitude_lt_of_isFinite hc)

theorem scale_spelling_of_short (hshort : HasShortDecimal c) :
    scale (nearest (spelling c).word 1) (spelling c).power = some c.magnitude := by
  unfold spelling
  split_ifs with hzero
  · have hscale : scale (nearest 0 1) (-1) = some 0 := by decide +kernel
    rw [hzero]
    exact hscale
  · obtain ⟨⟨hdigits, hne⟩, hlow, hhigh⟩ := hshort.resolve_left hzero
    exact Layout.scale_spell_exact _ (by decide) (Nat.pos_of_ne_zero hzero) (magnitude_lt_of_isFinite hc) hdigits hne
      hlow hhigh

theorem value?_spelling : (spelling c).numeral.value? = some (.real (reread c)) := by
  obtain ⟨r, hscale, -⟩ := scale_spelling hc
  rw [Spelling.value?_numeral (isReal_spelling c), Spelling.real?_numeral _ (word_spelling_lt hc), negative_spelling,
    reread, hscale]
  rfl

theorem coordText_starts : ∃ d t, coordText c = d :: t ∧ startsNumber d = true := by
  rw [coordText, if_pos hc, ← text_spelling]
  exact (writesNumeral_text (proper_spelling hc)).starts

/-- A finite coordinate that was printed is read as its `reread`, with or without space before it. -/
theorem readCoord_coordText {gap rest : List Char} (hgap : ∀ c ∈ gap, isSpace c = true) (h : endsNumber rest = true) :
    readCoord (gap ++ (coordText c ++ rest)) = .ok (reread c, rest) := by
  have hread := wantNumber_append .real hgap (writesNumeral_text (proper_spelling hc)) (value?_spelling hc) h
  rw [text_spelling] at hread
  rw [readCoord, coordText, if_pos hc, hread]
  rfl

theorem restores_reread : Restores c (reread c) := by
  obtain ⟨r, hscale, hfinite, habove, hbelow⟩ := scale_spelling hc
  have hreread : reread c = .ofParts c.isNegative r := by rw [reread, hscale]; rfl
  have hlt : r < Coord.signBit := hfinite.trans (by decide)
  refine ⟨?_, ?_, ?_, ?_, ?_⟩
  · rw [hreread, Coord.isFinite, Coord.magnitude_ofParts hlt]
    exact decide_eq_true hfinite
  · rw [hreread, Coord.isNegative_ofParts hlt]
  · rwa [hreread, Coord.magnitude_ofParts hlt]
  · rwa [hreread, Coord.magnitude_ofParts hlt]
  · intro hshort
    rw [reread, scale_spelling_of_short hc hshort]
    exact Coord.ofParts_parts c

end Coordinates

end Json

end Polypath
