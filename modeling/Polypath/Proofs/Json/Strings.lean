import Polypath.Json.Skip

/-!
# Strings

What may stand between the quotes of a string, and the characters that it stands for. A key is read character by
character, and its escapes have to make sense (`readStringAfter_append`, `readStringAfter_eq_ok`). A string that is
skipped only has to be in order, and half a surrogate pair is (`skipString_append`, `skipString_eq_ok`).
-/

namespace Polypath.Json

/-! ## Escapes -/

/-- Four hexadecimal digits write a code unit. -/
inductive WritesUnit : List Char → Nat → Prop where
  | digits {a b c d : Char} {i j k l : Nat} : hexDigit? a = some i → hexDigit? b = some j → hexDigit? c = some k →
      hexDigit? d = some l → WritesUnit [a, b, c, d] (((i * 16 + j) * 16 + k) * 16 + l)

/-- What follows a backslash writes a character: a letter, a code unit, or a pair of code units. -/
inductive WritesChar : List Char → Char → Prop where
  | short {c d : Char} : shortEscape? c = some d → WritesChar [c] d
  | unit {hex : List Char} {n : Nat} : WritesUnit hex n → isLowSurrogate n = false → isHighSurrogate n = false →
      WritesChar ('u' :: hex) (Char.ofNat n)
  | pair {hex hex' : List Char} {high low : Nat} : WritesUnit hex high → isHighSurrogate high = true →
      WritesUnit hex' low → isLowSurrogate low = true →
      WritesChar ('u' :: (hex ++ ('\\' :: 'u' :: hex')))
        (Char.ofNat ((high - 0xD800) * 0x400 + (low - 0xDC00) + 0x10000))

section Escapes

variable {s r raw hex : List Char} {c : Char} {n : Nat}

theorem readHex_append (h : WritesUnit hex n) (rest : List Char) : readHex (hex ++ rest) = .ok (n, rest) := by
  obtain ⟨ha, hb, hc, hd⟩ := h
  simp only [List.cons_append, List.nil_append, readHex, ha, hb, hc, hd]

theorem readHex_eq_ok (h : readHex s = .ok (n, r)) : ∃ hex, s = hex ++ r ∧ WritesUnit hex n := by
  unfold readHex at h
  split at h
  next a b c d t =>
    split at h
    next ha hb hc hd =>
      cases h
      exact ⟨[a, b, c, d], rfl, .digits ha hb hc hd⟩
    next => cases h
  next => cases h

theorem ne_u_of_shortEscape {d : Char} (h : shortEscape? c = some d) : c ≠ 'u' := by
  rintro rfl
  cases h

theorem isLowSurrogate_of_isHighSurrogate (h : isHighSurrogate n = true) : isLowSurrogate n = false := by
  simp only [isHighSurrogate, Bool.and_eq_true, decide_eq_true_eq] at h
  simp only [isLowSurrogate, Bool.and_eq_false_imp, decide_eq_true_eq, decide_eq_false_iff_not]
  omega

/-- A character is read from its escape. -/
theorem readEscape_append (h : WritesChar raw c) (rest : List Char) : readEscape (raw ++ rest) = .ok (c, rest) := by
  cases h with
  | short hshort =>
    simp only [List.cons_append, List.nil_append, readEscape, if_neg (ne_u_of_shortEscape hshort), hshort]
  | unit hunit hlow hhigh =>
    simp only [List.cons_append, readEscape, if_true, readCodePoint, readHex_append hunit, hlow, hhigh,
      Bool.false_eq_true, if_false]
  | pair hunit hhigh hunit' hlow =>
    simp only [List.cons_append, List.append_assoc, readEscape, if_true, readCodePoint, readHex_append hunit,
      isLowSurrogate_of_isHighSurrogate hhigh, hhigh, readLowSurrogate, readHex_append hunit', hlow,
      Bool.false_eq_true, if_false]

theorem readLowSurrogate_eq_ok {high : Nat} (h : readLowSurrogate high s = .ok (c, r)) :
    ∃ hex low, s = '\\' :: 'u' :: (hex ++ r) ∧ WritesUnit hex low ∧ isLowSurrogate low = true ∧
      c = Char.ofNat ((high - 0xD800) * 0x400 + (low - 0xDC00) + 0x10000) := by
  unfold readLowSurrogate at h
  split at h
  next t =>
    split at h
    next => cases h
    next low rest hhex =>
      split at h
      next hlow =>
        obtain ⟨hex, rfl, hunit⟩ := readHex_eq_ok hhex
        simp only [Except.ok.injEq, Prod.mk.injEq] at h
        obtain ⟨hc, rfl⟩ := h
        exact ⟨hex, low, rfl, hunit, hlow, hc.symm⟩
      next => cases h
  all_goals cases h

theorem readCodePoint_eq_ok (h : readCodePoint s = .ok (c, r)) :
    ∃ raw, s = raw ++ r ∧ WritesChar ('u' :: raw) c := by
  unfold readCodePoint at h
  split at h
  next => cases h
  next n t hhex =>
    obtain ⟨hex, rfl, hunit⟩ := readHex_eq_ok hhex
    split at h
    next => cases h
    next hlow =>
      split at h
      next hhigh =>
        obtain ⟨hex', low, rfl, hunit', hlow', hc⟩ := readLowSurrogate_eq_ok h
        rw [hc]
        exact ⟨hex ++ ('\\' :: 'u' :: hex'), by simp, .pair hunit hhigh hunit' hlow'⟩
      next hhigh =>
        cases h
        exact ⟨hex, rfl, .unit hunit (Bool.eq_false_iff.mpr hlow) (Bool.eq_false_iff.mpr hhigh)⟩

/-- What is taken for an escape writes its character. -/
theorem readEscape_eq_ok (h : readEscape s = .ok (c, r)) : ∃ raw, s = raw ++ r ∧ WritesChar raw c := by
  unfold readEscape at h
  split at h
  next => cases h
  next d t =>
    split at h
    next hd =>
      subst hd
      obtain ⟨raw, rfl, hraw⟩ := readCodePoint_eq_ok h
      exact ⟨'u' :: raw, rfl, hraw⟩
    next =>
      split at h
      next hshort =>
        cases h
        exact ⟨[d], rfl, .short hshort⟩
      next => cases h

end Escapes

/-! ## Strings that are read -/

/-- A character that stands for itself in a string. -/
def isPlain (c : Char) : Bool := c != '"' && c != '\\' && !isControl c

/-- What stands between two quotes stands for the given characters. -/
inductive Unescapes : List Char → List Char → Prop where
  | nil : Unescapes [] []
  | plain {c : Char} {raw name : List Char} : isPlain c = true → Unescapes raw name → Unescapes (c :: raw) (c :: name)
  | escape {esc raw name : List Char} {c : Char} : WritesChar esc c → Unescapes raw name →
      Unescapes ('\\' :: (esc ++ raw)) (c :: name)

section Strings

variable {s r raw name before : List Char}

theorem isPlain_iff {c : Char} : isPlain c = true ↔ c ≠ '"' ∧ c ≠ '\\' ∧ isControl c = false := by
  simp only [isPlain, Bool.and_eq_true, bne_iff_ne, ne_eq, Bool.not_eq_true', and_assoc]

theorem unescapes_of_isPlain (h : ∀ c ∈ name, isPlain c = true) : Unescapes name name := by
  induction name with
  | nil => exact .nil
  | cons c cs ih => exact .plain (h c List.mem_cons_self) (ih fun d hd => h d (List.mem_cons_of_mem _ hd))

theorem readStringAfter_quote (before rest : List Char) :
    readStringAfter before ('"' :: rest) = .ok (before.reverse, rest) := by
  unfold readStringAfter
  rfl

theorem readStringAfter_char {c : Char} (hc : isPlain c = true) (before s : List Char) :
    readStringAfter before (c :: s) = readStringAfter (c :: before) s := by
  obtain ⟨hquote, hescape, hcontrol⟩ := isPlain_iff.mp hc
  rw [readStringAfter]
  simp only [if_neg hquote, if_neg hescape, hcontrol, Bool.false_eq_true, if_false]

theorem readStringAfter_escape {c : Char} (h : readEscape s = .ok (c, r)) (before : List Char) :
    readStringAfter before ('\\' :: s) = readStringAfter (c :: before) r := by
  have hquote : ¬ '\\' = '"' := by decide
  rw [readStringAfter]
  simp only [if_neg hquote, if_true]
  split
  next heq => rw [h] at heq; cases heq
  next heq => rw [h] at heq; cases heq; rfl

/-- A string is read from what stands for it. -/
theorem readStringAfter_append (h : Unescapes raw name) (before rest : List Char) :
    readStringAfter before (raw ++ ('"' :: rest)) = .ok (before.reverse ++ name, rest) := by
  induction h generalizing before with
  | nil => rw [List.nil_append, readStringAfter_quote, List.append_nil]
  | plain hc _ ih =>
    rw [List.cons_append, readStringAfter_char hc, ih, List.reverse_cons, List.append_assoc, List.singleton_append]
  | escape hesc _ ih =>
    rw [List.cons_append, List.append_assoc, readStringAfter_escape (readEscape_append hesc _), ih,
      List.reverse_cons, List.append_assoc, List.singleton_append]

/-- What is read for a string stands for it. -/
theorem readStringAfter_eq_ok (h : readStringAfter before s = .ok (name, r)) :
    ∃ raw behind, s = raw ++ ('"' :: r) ∧ Unescapes raw behind ∧ name = before.reverse ++ behind := by
  fun_induction readStringAfter before s with
  | case1 => cases h
  | case2 before t =>
    cases h
    exact ⟨[], [], rfl, .nil, (List.append_nil _).symm⟩
  | case3 => cases h
  | case4 before t c rest hescape _ ih =>
    obtain ⟨raw, behind, rfl, hraw, rfl⟩ := ih h
    obtain ⟨esc, rfl, hesc⟩ := readEscape_eq_ok hescape
    exact ⟨'\\' :: (esc ++ raw), c :: behind, by simp, .escape hesc hraw, by simp⟩
  | case5 => cases h
  | case6 before c t hquote hescape hcontrol ih =>
    obtain ⟨raw, behind, rfl, hraw, rfl⟩ := ih h
    have hplain := isPlain_iff.mpr ⟨hquote, hescape, Bool.eq_false_iff.mpr hcontrol⟩
    exact ⟨c :: raw, c :: behind, rfl, .plain hplain hraw, by simp⟩

end Strings

/-! ## Strings that are skipped -/

/-- What may stand between two quotes. -/
inductive Escaped : List Char → Prop where
  | nil : Escaped []
  | plain {c : Char} {raw : List Char} : isPlain c = true → Escaped raw → Escaped (c :: raw)
  | short {c d : Char} {raw : List Char} : shortEscape? c = some d → Escaped raw → Escaped ('\\' :: c :: raw)
  | unit {hex raw : List Char} {n : Nat} : WritesUnit hex n → Escaped raw → Escaped ('\\' :: 'u' :: (hex ++ raw))

section Skipped

variable {s r raw name : List Char}

/-- What stands for some characters may stand between quotes: a pair of code units is one after the other. -/
theorem Unescapes.escaped (h : Unescapes raw name) : Escaped raw := by
  induction h with
  | nil => exact .nil
  | plain hc _ ih => exact .plain hc ih
  | escape hesc _ ih =>
    cases hesc with
    | short hshort => exact .short hshort ih
    | unit hunit => exact .unit hunit ih
    | pair hunit _ hunit' _ =>
      rw [List.cons_append, List.append_assoc]
      exact .unit hunit (.unit hunit' ih)

theorem skipEscape_eq_ok (h : skipEscape s = .ok r) :
    (∃ c d, s = c :: r ∧ shortEscape? c = some d) ∨ ∃ hex n, s = 'u' :: (hex ++ r) ∧ WritesUnit hex n := by
  unfold skipEscape at h
  split at h
  next => cases h
  next c t =>
    split at h
    next hc =>
      subst hc
      split at h
      next n rest hhex =>
        cases h
        obtain ⟨hex, rfl, hunit⟩ := readHex_eq_ok hhex
        exact .inr ⟨hex, n, rfl, hunit⟩
      next => cases h
    next =>
      split at h
      next hshort =>
        cases h
        obtain ⟨d, hd⟩ := Option.isSome_iff_exists.mp hshort
        exact .inl ⟨c, d, rfl, hd⟩
      next => cases h

theorem skipString_char {c : Char} (hc : isPlain c = true) (s : List Char) : skipString (c :: s) = skipString s := by
  obtain ⟨hquote, hescape, hcontrol⟩ := isPlain_iff.mp hc
  rw [skipString]
  simp only [if_neg hquote, if_neg hescape, hcontrol, Bool.false_eq_true, if_false]

theorem skipString_escape (h : skipEscape s = .ok r) : skipString ('\\' :: s) = skipString r := by
  have hquote : ¬ '\\' = '"' := by decide
  rw [skipString]
  simp only [if_neg hquote, if_true]
  split
  next heq => rw [h] at heq; cases heq
  next heq => rw [h] at heq; cases heq; rfl

/-- A string that is in order is skipped to its end. -/
theorem skipString_append (h : Escaped raw) (rest : List Char) : skipString (raw ++ ('"' :: rest)) = .ok rest := by
  induction h with
  | nil =>
    rw [List.nil_append]
    unfold skipString
    rfl
  | plain hc _ ih => rw [List.cons_append, skipString_char hc, ih]
  | @short c d raw hshort _ ih =>
    have hskip : skipEscape (c :: (raw ++ ('"' :: rest))) = .ok (raw ++ ('"' :: rest)) := by
      simp only [skipEscape, if_neg (ne_u_of_shortEscape hshort), hshort, Option.isSome_some, if_true]
    rw [List.cons_append, List.cons_append, skipString_escape hskip, ih]
  | @unit hex raw n hunit _ ih =>
    have hskip : skipEscape ('u' :: (hex ++ (raw ++ ('"' :: rest)))) = .ok (raw ++ ('"' :: rest)) := by
      simp only [skipEscape, if_true, readHex_append hunit]
    rw [List.cons_append, List.cons_append, List.append_assoc, skipString_escape hskip, ih]

/-- What is skipped as a string is in order. -/
theorem skipString_eq_ok (h : skipString s = .ok r) : ∃ raw, s = raw ++ ('"' :: r) ∧ Escaped raw := by
  fun_induction skipString s with
  | case1 => cases h
  | case2 t =>
    cases h
    exact ⟨[], rfl, .nil⟩
  | case3 => cases h
  | case4 t rest hescape _ ih =>
    obtain ⟨raw, rfl, hraw⟩ := ih h
    obtain ⟨c, d, rfl, hshort⟩ | ⟨hex, n, rfl, hunit⟩ := skipEscape_eq_ok hescape
    · exact ⟨'\\' :: c :: raw, rfl, .short hshort hraw⟩
    · exact ⟨'\\' :: 'u' :: (hex ++ raw), by simp, .unit hunit hraw⟩
  | case5 => cases h
  | case6 c t hquote hescape hcontrol ih =>
    obtain ⟨raw, rfl, hraw⟩ := ih h
    have hplain := isPlain_iff.mpr ⟨hquote, hescape, Bool.eq_false_iff.mpr hcontrol⟩
    exact ⟨c :: raw, rfl, .plain hplain hraw⟩

end Skipped

end Polypath.Json
