import Polypath.Proofs.Json.Documents

/-!
# The grammar of documents

A text is a sequence of tokens with space between them (`Spaced`), and a value is a sequence of tokens of a certain
form (`Derives`). Skipping goes over every value, whatever its depth and the space in it (`skipValue_append`), and over
nothing else (`skipValue_eq_ok`). The brackets that are open are those of the derivation, from the inside to the
outside: what is skipped from some place on finishes each of them in turn (`Finishes`).
-/

namespace Polypath.Json

/-! ## Tokens -/

/-- The characters of a number. -/
structure NumberText where
  chars : List Char
  numeral : Decimal.Numeral
  writes : WritesNumeral chars numeral

/-- The characters between the quotes of a string. -/
structure StringText where
  chars : List Char
  escaped : Escaped chars

/-- The character that opens a bracket. -/
def Bracket.opening : Bracket → Char
  | .list => '['
  | .object => '\x7b'

/-- The parts of a document between which space may stand. -/
inductive Token where
  | opening (b : Bracket)
  | closing (b : Bracket)
  | comma
  | colon
  | null
  | boolean (value : Bool)
  | number (n : NumberText)
  | string (s : StringText)

namespace Token

/-- The characters of a token. -/
def text : Token → List Char
  | .opening b => [b.opening]
  | .closing b => [b.closing]
  | .comma => [',']
  | .colon => [':']
  | .null => ['n', 'u', 'l', 'l']
  | .boolean true => ['t', 'r', 'u', 'e']
  | .boolean false => ['f', 'a', 'l', 's', 'e']
  | .number n => n.chars
  | .string s => '"' :: (s.chars ++ ['"'])

/-- Whether a token is a value by itself. -/
def isScalar : Token → Bool
  | .null | .boolean _ | .number _ | .string _ => true
  | _ => false

/-- Whether a value can start with a token. -/
def startsValue : Token → Bool
  | .opening _ => true
  | t => t.isScalar

/-- Whether a token can follow a value. -/
def followsValue : Token → Bool
  | .closing _ | .comma => true
  | _ => false

/-- What the first character of a value tells about its first token. -/
structure Starts (t : Token) (c : Char) : Prop where
  space : isSpace c = false
  closing : ∀ b : Bracket, c ≠ b.closing
  number : startsNumber c = true → ∃ n, t = .number n
  list : c = '[' → t = .opening .list

/-- Every character that is neither a bracket nor starts a number tells only that. -/
theorem Starts.other {c : Char} (t : Token) (hspace : isSpace c = false) (hnumber : startsNumber c = false)
    (hbracket : c ∉ ['[', ']', '\x7d']) : t.Starts c where
  space := hspace
  closing b := by
    rintro rfl
    cases b with
    | list => simp [Bracket.closing] at hbracket
    | object => simp [Bracket.closing] at hbracket
  number hc := by
    rw [hnumber] at hc
    cases hc
  list hc := by simp [hc] at hbracket

theorem text_starts {t : Token} (h : t.startsValue = true) : ∃ c r, t.text = c :: r ∧ t.Starts c := by
  cases t with
  | opening b =>
    cases b with
    | list =>
      refine ⟨'[', [], rfl, rfl, ?_, ?_, fun _ => rfl⟩
      · rintro (_ | _) <;> decide
      · exact fun hc => absurd hc (by decide)
    | object => exact ⟨'\x7b', [], rfl, .other _ rfl rfl (by decide)⟩
  | null => exact ⟨'n', _, rfl, .other _ rfl rfl (by decide)⟩
  | boolean value =>
    cases value with
    | true => exact ⟨'t', _, rfl, .other _ rfl rfl (by decide)⟩
    | false => exact ⟨'f', _, rfl, .other _ rfl rfl (by decide)⟩
  | number n =>
    obtain ⟨c, r, htext, hstart⟩ := n.writes.starts
    have hne : ∀ {d : Char}, startsNumber d = false → c ≠ d := ne_of_startsNumber hstart
    refine ⟨c, r, htext, isSpace_of_startsNumber hstart, ?_, fun _ => ⟨n, rfl⟩, fun hc => absurd hc (hne rfl)⟩
    rintro (_ | _)
    · exact hne rfl
    · exact hne rfl
  | string s => exact ⟨'"', _, rfl, .other _ rfl rfl (by decide)⟩
  | closing b | comma | colon => cases h

end Token

/-- The text is the given tokens with any space before each of them. -/
inductive Spaced : List Token → List Char → Prop where
  | nil : Spaced [] []
  | cons {gap text : List Char} {ts : List Token} (t : Token) : (∀ c ∈ gap, isSpace c = true) → Spaced ts text →
      Spaced (t :: ts) (gap ++ (t.text ++ text))

section Spaced

variable {t : Token} {ts us : List Token} {s : List Char}

theorem Spaced.append {text text' : List Char} (h : Spaced ts text) (h' : Spaced us text') :
    Spaced (ts ++ us) (text ++ text') := by
  induction h with
  | nil => exact h'
  | cons t hgap _ ih =>
    rw [List.append_assoc, List.append_assoc]
    exact .cons t hgap ih

theorem Spaced.split (h : Spaced (ts ++ us) s) :
    ∃ text text', s = text ++ text' ∧ Spaced ts text ∧ Spaced us text' := by
  induction ts generalizing s with
  | nil => exact ⟨[], s, rfl, .nil, h⟩
  | cons t ts ih =>
    cases h with
    | cons _ hgap h =>
      obtain ⟨text, text', rfl, hts, hus⟩ := ih h
      exact ⟨_, text', by simp only [List.append_assoc], .cons t hgap hts, hus⟩

theorem Spaced.gap {gap : List Char} (hgap : ∀ c ∈ gap, isSpace c = true) (h : Spaced (t :: ts) s) :
    Spaced (t :: ts) (gap ++ s) := by
  cases h with
  | cons _ hgap' h =>
    rw [← List.append_assoc]
    exact .cons t (List.forall_mem_append.mpr ⟨hgap, hgap'⟩) h

theorem skipSpace_eq_cons {c : Char} {r : List Char} (h : skipSpace s = c :: r) :
    ∃ gap, s = gap ++ (c :: r) ∧ (∀ c ∈ gap, isSpace c = true) ∧ isSpace c = false := by
  have hsplit : s.takeWhile isSpace ++ skipSpace s = s := List.takeWhile_append_dropWhile
  rw [h] at hsplit
  refine ⟨s.takeWhile isSpace, hsplit.symm, fun c hc => List.mem_takeWhile_imp hc, ?_⟩
  have hhead := List.head?_dropWhile_not isSpace s
  rw [show s.dropWhile isSpace = c :: r from h] at hhead
  simpa using hhead

theorem skipSpace_skipSpace (s : List Char) : skipSpace (skipSpace s) = skipSpace s := by
  cases h : skipSpace s with
  | nil => rfl
  | cons c r =>
    obtain ⟨gap, -, -, hc⟩ := skipSpace_eq_cons h
    exact skipSpace_cons hc r

theorem Spaced.skipSpace_starts (h : Spaced (t :: ts) s) (ht : t.startsValue = true) (rest : List Char) :
    ∃ c r, skipSpace (s ++ rest) = c :: r ∧ t.Starts c := by
  cases h with
  | cons _ hgap h =>
    obtain ⟨c, r, htext, hstarts⟩ := Token.text_starts ht
    rw [List.append_assoc, htext, List.cons_append, List.cons_append, skipSpace_gap hgap hstarts.space]
    exact ⟨c, _, rfl, hstarts⟩

theorem Spaced.endsNumber (h : Spaced (t :: ts) s) (ht : t.followsValue = true) (rest : List Char) :
    endsNumber (s ++ rest) = true := by
  cases h with
  | cons _ hgap h =>
    rw [List.append_assoc]
    refine endsNumber_append hgap ?_
    cases t with
    | closing b => cases b <;> rfl
    | comma => rfl
    | opening _ | colon | null | boolean _ | number _ | string _ => cases ht

end Spaced

/-! ## Values -/

/-- What a sequence of tokens can be: a value, or what follows a value inside a bracket, up to the end of it. -/
inductive Phrase where
  | value
  | tail (b : Bracket)

/-- The tokens stand before a value inside a bracket: a key and a colon, in an object. -/
inductive Leads : Bracket → List Token → Prop where
  | list : Leads .list []
  | object (key : StringText) : Leads .object [.string key, .colon]

/-- The tokens form a phrase. -/
inductive Derives : Phrase → List Token → Prop where
  | scalar {t : Token} : t.isScalar = true → Derives .value [t]
  | empty (b : Bracket) : Derives .value [.opening b, .closing b]
  | filled {b : Bracket} {lead v r : List Token} : Leads b lead → Derives .value v → Derives (.tail b) r →
      Derives .value (.opening b :: (lead ++ (v ++ r)))
  | close (b : Bracket) : Derives (.tail b) [.closing b]
  | further {b : Bracket} {lead v r : List Token} : Leads b lead → Derives .value v → Derives (.tail b) r →
      Derives (.tail b) (.comma :: (lead ++ (v ++ r)))

section Derives

variable {b : Bracket} {v r lead : List Token}

theorem Derives.value_starts (h : Derives .value v) : ∃ t ts, v = t :: ts ∧ t.startsValue = true := by
  cases h with
  | @scalar t ht =>
    refine ⟨t, [], rfl, ?_⟩
    cases t with
    | opening _ | closing _ | comma | colon => cases ht
    | null | boolean _ | number _ | string _ => rfl
  | empty b => exact ⟨.opening b, _, rfl, rfl⟩
  | @filled b _ _ _ _ _ _ => exact ⟨.opening b, _, rfl, rfl⟩

theorem Leads.starts (hlead : Leads b lead) (hv : Derives .value v) (r : List Token) :
    ∃ t ts, lead ++ (v ++ r) = t :: ts ∧ t.startsValue = true := by
  cases hlead with
  | list =>
    obtain ⟨t, ts, rfl, ht⟩ := hv.value_starts
    exact ⟨t, ts ++ r, rfl, ht⟩
  | object key => exact ⟨.string key, _, rfl, rfl⟩

theorem Derives.tail_starts (h : Derives (.tail b) r) : ∃ t ts, r = t :: ts ∧ t.followsValue = true := by
  cases h with
  | close => exact ⟨.closing b, [], rfl, rfl⟩
  | further _ _ _ => exact ⟨.comma, _, rfl, rfl⟩

theorem Derives.endsNumber {s : List Char} (h : Derives (.tail b) r) (hs : Spaced r s) (rest : List Char) :
    endsNumber (s ++ rest) = true := by
  obtain ⟨t, ts, rfl, ht⟩ := h.tail_starts
  exact hs.endsNumber ht rest

end Derives

/-! ## Steps of skipping -/

section Steps

variable {b : Bracket} {bs : List Bracket} {s r rest : List Char} {c d : Char}

theorem skipWithin_scalar (hs : skipSpace s = c :: r) (hc : opening? c = none) (hskip : skipScalar c r = .ok rest) :
    skipWithin true bs s = skipWithin false bs rest := by
  rw [skipWithin]
  grind

theorem skipWithin_empty (hs : skipSpace s = c :: r) (hc : opening? c = some b) (hr : skipSpace r = b.closing :: rest) :
    skipWithin true bs s = skipWithin false bs rest := by
  rw [skipWithin]
  grind

theorem skipWithin_open {t : List Char} (hs : skipSpace s = c :: r) (hc : opening? c = some b)
    (hr : skipSpace r = d :: t) (hd : d ≠ b.closing) (hlead : b.lead r = .ok rest) :
    skipWithin true bs s = skipWithin true (b :: bs) rest := by
  rw [skipWithin]
  grind

theorem skipWithin_close (hs : skipSpace s = b.closing :: r) :
    skipWithin false (b :: bs) s = skipWithin false bs r := by
  rw [skipWithin]
  grind

theorem skipWithin_comma (hs : skipSpace s = ',' :: r) (hlead : b.lead r = .ok rest) :
    skipWithin false (b :: bs) s = skipWithin true (b :: bs) rest := by
  have hcomma : ',' ≠ b.closing := by cases b <;> decide
  conv_lhs => rw [skipWithin]
  grind

theorem skipWithin_done (s : List Char) : skipWithin false [] s = .ok s := by rw [skipWithin]

theorem opening?_opening (b : Bracket) : opening? b.opening = some b := by
  cases b <;> rfl

theorem isSpace_opening (b : Bracket) : isSpace b.opening = false := by
  cases b <;> rfl

theorem isSpace_closing (b : Bracket) : isSpace b.closing = false := by
  cases b <;> rfl

theorem readIdent_append (ident rest : List Char) : readIdent ident (ident ++ rest) = .ok rest := by
  induction ident with
  | nil => rfl
  | cons c cs ih => rw [List.cons_append, readIdent, if_pos rfl, ih]

/-- A value without parts is skipped by its first character. -/
theorem skipScalar_text {t : Token} (ht : t.isScalar = true) (h : endsNumber rest = true) :
    ∃ c r, t.text = c :: r ∧ isSpace c = false ∧ opening? c = none ∧ skipScalar c (r ++ rest) = .ok rest := by
  cases t with
  | null => exact ⟨'n', _, rfl, rfl, rfl, readIdent_append ['u', 'l', 'l'] rest⟩
  | boolean value =>
    cases value with
    | true => exact ⟨'t', _, rfl, rfl, rfl, readIdent_append ['r', 'u', 'e'] rest⟩
    | false => exact ⟨'f', _, rfl, rfl, rfl, readIdent_append ['a', 'l', 's', 'e'] rest⟩
  | number n =>
    obtain ⟨c, r, htext, hstart⟩ := n.writes.starts
    have hread := readNumeral_append .invalidNumber n.writes h
    have hne : ∀ {d : Char}, startsNumber d = false → c ≠ d := ne_of_startsNumber hstart
    rw [htext, List.cons_append] at hread
    refine ⟨c, r, htext, isSpace_of_startsNumber hstart, ?_, ?_⟩
    · rw [opening?, if_neg (hne rfl), if_neg (hne rfl)]
    · rw [skipScalar, if_neg (hne rfl), if_neg (hne rfl), if_neg (hne rfl), if_neg (hne rfl), if_pos hstart, hread]
  | string s =>
    refine ⟨'"', _, rfl, rfl, rfl, ?_⟩
    rw [List.append_assoc]
    exact skipString_append s.escaped rest
  | opening b | closing b | comma | colon => cases ht

/-- What stands before a value inside a bracket is skipped. -/
theorem Leads.skip {lead : List Token} (h : Leads b lead) (hs : Spaced lead s) (rest : List Char) :
    b.lead (s ++ rest) = .ok rest := by
  cases h with
  | list =>
    cases hs
    rfl
  | object key =>
    cases hs with
    | cons _ hgap hs =>
      cases hs with
      | cons _ hgap' hs =>
        cases hs
        simp only [Token.text, List.append_assoc, List.cons_append, List.nil_append, List.append_nil]
        rw [Bracket.lead, skipKey, skipSpace_append hgap, skipSpace_cons rfl]
        simp only [if_true, skipString_append key.escaped, readColon_spaced hgap']

end Steps

/-! ## Skipping values -/

/-- What skipping does to a phrase inside the given open brackets. -/
def Skips : Phrase → List Token → Prop
  | .value, ts => ∀ (bs : List Bracket) {s rest : List Char}, Spaced ts s → endsNumber rest = true →
      skipWithin true bs (s ++ rest) = skipWithin false bs rest
  | .tail b, ts => ∀ (bs : List Bracket) {s : List Char} (rest : List Char), Spaced ts s →
      skipWithin false (b :: bs) (s ++ rest) = skipWithin false bs rest

section Skipping

variable {b : Bracket} {lead v r : List Token}

theorem skips_scalar {t : Token} (ht : t.isScalar = true) : Skips .value [t] := by
  intro bs s rest hs hrest
  cases hs with
  | cons _ hgap hs =>
    cases hs
    obtain ⟨c, r, htext, hspace, hopen, hskip⟩ := skipScalar_text ht hrest
    rw [htext, List.append_nil, List.append_assoc, List.cons_append]
    exact skipWithin_scalar (skipSpace_gap hgap hspace) hopen hskip

theorem skips_empty (b : Bracket) : Skips .value [.opening b, .closing b] := by
  intro bs s rest hs hrest
  cases hs with
  | cons _ hgap hs =>
    cases hs with
    | cons _ hgap' hs =>
      cases hs
      simp only [Token.text, List.append_assoc, List.cons_append, List.nil_append, List.append_nil]
      exact skipWithin_empty (skipSpace_gap hgap (isSpace_opening b)) (opening?_opening b)
        (skipSpace_gap hgap' (isSpace_closing b))

/-- A member or element is skipped, and so is what follows it. -/
theorem skipWithin_phrases (bs : List Bracket) {t u : List Char} (hv : Skips .value v) (hr : Skips (.tail b) r)
    (hderives : Derives (.tail b) r) (ht : Spaced v t) (hu : Spaced r u) (rest : List Char) :
    skipWithin true (b :: bs) (t ++ (u ++ rest)) = skipWithin false bs rest := by
  rw [hv (b :: bs) ht (hderives.endsNumber hu rest), hr bs rest hu]

theorem skips_of_derives {p : Phrase} {ts : List Token} (h : Derives p ts) : Skips p ts := by
  induction h with
  | scalar ht => exact skips_scalar ht
  | empty b => exact skips_empty b
  | @filled b lead v r hlead hv hr ihv ihr =>
    intro bs s rest hs hrest
    -- what comes behind the bracket does not close it, or the value would be skipped as an empty one
    obtain ⟨c, ts, hcons, hstarts⟩ := hlead.starts hv r
    cases hs with
    | cons _ hgap hs =>
      obtain ⟨d, w, hskip, hfirst⟩ := (hcons ▸ hs).skipSpace_starts hstarts rest
      obtain ⟨l, s, rfl, hl, hs⟩ := hs.split
      obtain ⟨t, u, rfl, ht, hu⟩ := hs.split
      simp only [Token.text, List.append_assoc, List.cons_append, List.nil_append] at hskip ⊢
      rw [skipWithin_open (skipSpace_gap hgap (isSpace_opening b)) (opening?_opening b) hskip (hfirst.closing b)
        (hlead.skip hl _)]
      exact skipWithin_phrases bs ihv ihr hr ht hu rest
  | close b =>
    intro bs s rest hs
    cases hs with
    | cons _ hgap hs =>
      cases hs
      simp only [Token.text, List.append_assoc, List.cons_append, List.nil_append]
      exact skipWithin_close (skipSpace_gap hgap (isSpace_closing b))
  | @further b lead v r hlead hv hr ihv ihr =>
    intro bs s rest hs
    cases hs with
    | cons _ hgap hs =>
      obtain ⟨l, s, rfl, hl, hs⟩ := hs.split
      obtain ⟨t, u, rfl, ht, hu⟩ := hs.split
      simp only [Token.text, List.append_assoc, List.cons_append, List.nil_append]
      rw [skipWithin_comma (skipSpace_gap hgap rfl) (hlead.skip hl _)]
      exact skipWithin_phrases bs ihv ihr hr ht hu rest

/-- A value is skipped to its end. -/
theorem skipValue_append {s rest : List Char} (h : Derives .value v) (hs : Spaced v s)
    (hrest : endsNumber rest = true) : skipValue (s ++ rest) = .ok rest := by
  rw [skipValue, skips_of_derives h [] hs hrest, skipWithin_done]

end Skipping

/-! ## What is skipped -/

/-- The tokens finish a value, if one comes next, and then each of the open brackets, the innermost first. -/
inductive Finishes : Bool → List Bracket → List Token → Prop where
  | done : Finishes false [] []
  | bracket {b : Bracket} {bs : List Bracket} {r ts : List Token} : Derives (.tail b) r → Finishes false bs ts →
      Finishes false (b :: bs) (r ++ ts)
  | value {bs : List Bracket} {v ts : List Token} : Derives .value v → Finishes false bs ts → Finishes true bs (v ++ ts)

section Skipped

variable {b : Bracket} {bs : List Bracket} {s r rest : List Char} {c : Char} {lead ts : List Token}

theorem Finishes.opening (hlead : Leads b lead) (h : Finishes true (b :: bs) ts) :
    Finishes true bs (.opening b :: (lead ++ ts)) := by
  cases h with
  | value hv h =>
    cases h with
    | bracket hr h => simpa only [List.append_assoc, List.cons_append] using Finishes.value (.filled hlead hv hr) h

theorem Finishes.comma (hlead : Leads b lead) (h : Finishes true (b :: bs) ts) :
    Finishes false (b :: bs) (.comma :: (lead ++ ts)) := by
  cases h with
  | value hv h =>
    cases h with
    | bracket hr h => simpa only [List.append_assoc, List.cons_append] using Finishes.bracket (.further hlead hv hr) h

theorem opening?_eq_some (h : opening? c = some b) : c = b.opening := by
  unfold opening? at h
  split at h
  next hc => cases h; exact hc
  next =>
    split at h
    next hc => cases h; exact hc
    next => cases h

theorem readIdent_eq_ok {ident : List Char} (h : readIdent ident s = .ok r) : s = ident ++ r := by
  induction ident generalizing s with
  | nil =>
    cases h
    rfl
  | cons c cs ih =>
    cases s with
    | nil => cases h
    | cons d s =>
      rw [readIdent] at h
      split at h
      next hc => rw [hc, ih h, List.cons_append]
      next => cases h

theorem skipScalar_eq_ok (h : skipScalar c s = .ok r) : ∃ t : Token, t.isScalar = true ∧ c :: s = t.text ++ r := by
  unfold skipScalar at h
  split at h
  · next hc => exact ⟨.null, rfl, by rw [hc, readIdent_eq_ok h]; rfl⟩
  split at h
  · next hc => exact ⟨.boolean true, rfl, by rw [hc, readIdent_eq_ok h]; rfl⟩
  split at h
  · next hc => exact ⟨.boolean false, rfl, by rw [hc, readIdent_eq_ok h]; rfl⟩
  split at h
  · next hc =>
    obtain ⟨raw, rfl, hraw⟩ := skipString_eq_ok h
    exact ⟨.string ⟨raw, hraw⟩, rfl, by simp [hc, Token.text]⟩
  split at h
  · split at h
    · next n rest hread =>
      cases h
      obtain ⟨raw, hsplit, hwrites⟩ := readNumeral_eq_ok hread
      exact ⟨.number ⟨raw, n, hwrites⟩, rfl, hsplit⟩
    · cases h
  · cases h

theorem readColon_eq_ok (h : readColon s = .ok r) : ∃ gap, s = gap ++ (':' :: r) ∧ ∀ c ∈ gap, isSpace c = true := by
  unfold readColon at h
  split at h
  next => cases h
  next hs =>
    split at h
    next hc =>
      cases h
      obtain ⟨gap, hsplit, hgap, -⟩ := skipSpace_eq_cons hs
      exact ⟨gap, hc ▸ hsplit, hgap⟩
    next => cases h

/-- What is skipped before a value inside a bracket may stand there. -/
theorem Bracket.lead_eq_ok (h : b.lead s = .ok r) : ∃ lead t, s = t ++ r ∧ Spaced lead t ∧ Leads b lead := by
  cases b with
  | list =>
    cases h
    exact ⟨[], [], rfl, .nil, .list⟩
  | object =>
    rw [Bracket.lead, skipKey] at h
    split at h
    next => cases h
    next c t hs =>
      obtain ⟨gap, rfl, hgap, -⟩ := skipSpace_eq_cons hs
      split at h
      next hc =>
        subst hc
        split at h
        next rest hskip =>
          obtain ⟨raw, rfl, hraw⟩ := skipString_eq_ok hskip
          obtain ⟨gap', rfl, hgap'⟩ := readColon_eq_ok h
          exact ⟨_, _, by simp [Token.text], .cons (.string ⟨raw, hraw⟩) hgap (.cons .colon hgap' .nil), .object _⟩
        next => cases h
      next => cases h

/-- What is skipped inside the given open brackets finishes them. -/
theorem finishes_of_skipWithin {valueNext : Bool} (h : skipWithin valueNext bs s = .ok rest) :
    ∃ ts t, s = t ++ rest ∧ Spaced ts t ∧ Finishes valueNext bs ts := by
  -- a case of the recursion is a rule of the grammar, or else a fault
  fun_induction skipWithin valueNext bs s with
  | case3 s bs c r hs hc rest' hskip ih =>
    obtain ⟨ts, t, rfl, ht, hfinishes⟩ := ih h
    obtain ⟨gap, rfl, hgap, -⟩ := skipSpace_eq_cons hs
    obtain ⟨scalar, hscalar, hsplit⟩ := skipScalar_eq_ok hskip
    exact ⟨scalar :: ts, _, by rw [hsplit]; simp, .cons scalar hgap ht, .value (.scalar hscalar) hfinishes⟩
  | case5 s bs c r hs b hc t hr ih =>
    obtain ⟨ts, t, rfl, ht, hfinishes⟩ := ih h
    obtain ⟨gap, rfl, hgap, -⟩ := skipSpace_eq_cons hs
    obtain ⟨gap', rfl, hgap', -⟩ := skipSpace_eq_cons hr
    rw [opening?_eq_some hc]
    exact ⟨_, _, by simp [Token.text], .cons (.opening b) hgap (.cons (.closing b) hgap' ht),
      .value (.empty b) hfinishes⟩
  | case7 s bs c r hs b hc d t hr hd rest' hlead ih =>
    obtain ⟨ts, t, rfl, ht, hfinishes⟩ := ih h
    obtain ⟨gap, rfl, hgap, -⟩ := skipSpace_eq_cons hs
    obtain ⟨lead, l, rfl, hl, hleads⟩ := b.lead_eq_ok hlead
    rw [opening?_eq_some hc]
    exact ⟨_, _, by simp [Token.text], .cons (.opening b) hgap (hl.append ht), hfinishes.opening hleads⟩
  | case8 s =>
    cases h
    exact ⟨[], [], rfl, .nil, .done⟩
  | case10 s b bs r hs ih =>
    obtain ⟨ts, t, rfl, ht, hfinishes⟩ := ih h
    obtain ⟨gap, rfl, hgap, -⟩ := skipSpace_eq_cons hs
    exact ⟨_, _, by simp [Token.text], .cons (.closing b) hgap ht, .bracket (.close b) hfinishes⟩
  | case12 s b bs r rest' hlead hs _ ih =>
    obtain ⟨ts, t, rfl, ht, hfinishes⟩ := ih h
    obtain ⟨gap, rfl, hgap, -⟩ := skipSpace_eq_cons hs
    obtain ⟨lead, l, rfl, hl, hleads⟩ := b.lead_eq_ok hlead
    exact ⟨_, _, by simp [Token.text], .cons .comma hgap (hl.append ht), hfinishes.comma hleads⟩
  | case1 | case2 | case4 | case6 | case9 | case11 | case13 => cases h

/-- What is skipped as a value is one. -/
theorem skipValue_eq_ok (h : skipValue s = .ok rest) : ∃ v t, s = t ++ rest ∧ Spaced v t ∧ Derives .value v := by
  obtain ⟨ts, t, hsplit, ht, hfinishes⟩ := finishes_of_skipWithin h
  cases hfinishes with
  | @value _ v _ hv hdone =>
    cases hdone
    rw [List.append_nil] at ht
    exact ⟨v, t, hsplit, ht, hv⟩

end Skipped

end Polypath.Json
