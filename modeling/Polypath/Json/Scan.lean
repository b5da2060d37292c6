import Polypath.Json.Location

/-!
# Reading the parts of a document

Each function takes what it reads off the front of a text and gives back the rest. What is read is never empty, except
for space, so the rest is shorter than the text; the lemmas `length_…` say so, and all loops end because of them.
A fault shows behind the byte that it is about, and a text that breaks off shows its fault at the end.
-/

namespace Polypath.Json

/-- The characters that may stand between the parts of a document. -/
def isSpace (c : Char) : Bool := c = ' ' || c = '\n' || c = '\t' || c = '\r'

/-- The text from its first character that is no space. -/
def skipSpace (s : List Char) : List Char := s.dropWhile isSpace

theorem length_skipSpace (s : List Char) : (skipSpace s).length ≤ s.length :=
  (List.dropWhile_sublist isSpace).length_le

/-! ## Words -/

/-- Reads the given characters. -/
def readIdent : List Char → List Char → Except Located (List Char)
  | [], s => .ok s
  | _ :: _, [] => .error (Fault.past (.eof .value) 0 [])
  | c :: cs, d :: s => if c = d then readIdent cs s else .error (Fault.past .expectedIdent 1 (d :: s))

theorem length_readIdent {ident s r : List Char} (h : readIdent ident s = .ok r) : r.length ≤ s.length := by
  induction ident generalizing s with
  | nil => simp_all [readIdent]
  | cons c cs ih =>
    cases s with
    | nil => simp [readIdent] at h
    | cons d s =>
      simp only [readIdent] at h
      split at h
      · have := ih h
        simp only [List.length_cons]
        omega
      · cases h

/-! ## Numbers -/

/-- The digits at the front of a text. -/
def digitsOf (s : List Char) : List Nat := (s.takeWhile Char.isDigit).map fun c => c.toNat - '0'.toNat

/-- The text behind its leading digits. -/
def afterDigits (s : List Char) : List Char := s.dropWhile Char.isDigit

/-- Whether a text starts with a digit. -/
def startsWithDigit (s : List Char) : Bool := s.head?.any Char.isDigit

theorem length_afterDigits (s : List Char) : (afterDigits s).length ≤ s.length :=
  (List.dropWhile_sublist Char.isDigit).length_le

theorem length_afterDigits_lt {s : List Char} (h : startsWithDigit s) : (afterDigits s).length < s.length := by
  cases s with
  | nil => simp [startsWithDigit] at h
  | cons c s =>
    have hc : c.isDigit := by simpa [startsWithDigit] using h
    have := length_afterDigits s
    simp only [afterDigits, List.dropWhile_cons, hc, if_true, List.length_cons]
    simp only [afterDigits] at this
    omega

/-- Reads one or more digits; `cut` is the fault of a text that ends where they should start. -/
def readDigits (cut : Fault) (s : List Char) : Except Located (List Nat × List Char) :=
  if startsWithDigit s then .ok (digitsOf s, afterDigits s)
  else .error (Fault.past (if s.isEmpty then cut else .invalidNumber) 1 s)

theorem length_readDigits {cut : Fault} {s r : List Char} {ds : List Nat} (h : readDigits cut s = .ok (ds, r)) :
    r.length < s.length := by
  unfold readDigits at h
  split at h
  · next hd =>
    simp only [Except.ok.injEq, Prod.mk.injEq] at h
    exact h.2 ▸ length_afterDigits_lt hd
  · cases h

/-- Reads digits that do not start with a zero unless they are a single one. -/
def readWhole (cut : Fault) (s : List Char) : Except Located (List Nat × List Char) :=
  match s with
  | '0' :: r => if startsWithDigit r then .error (Fault.past .invalidNumber 1 r) else .ok ([0], r)
  | s => readDigits cut s

theorem length_readWhole {cut : Fault} {s r : List Char} {ds : List Nat} (h : readWhole cut s = .ok (ds, r)) :
    r.length < s.length := by
  unfold readWhole at h
  split at h
  · split at h
    · cases h
    · simp only [Except.ok.injEq, Prod.mk.injEq] at h
      simp [← h.2]
  · exact length_readDigits h

/-- Reads a point and the digits behind it, if there is a point. -/
def readFraction (cut : Fault) (s : List Char) : Except Located (Option (List Nat) × List Char) :=
  match s with
  | '.' :: r =>
    match readDigits cut r with
    | .ok (ds, r) => .ok (some ds, r)
    | .error e => .error e
  | s => .ok (none, s)

theorem length_readFraction {cut : Fault} {s r : List Char} {ds : Option (List Nat)}
    (h : readFraction cut s = .ok (ds, r)) : r.length ≤ s.length := by
  unfold readFraction at h
  split at h
  · split at h
    · next hd =>
      have := length_readDigits hd
      simp only [Except.ok.injEq, Prod.mk.injEq] at h
      rw [← h.2, List.length_cons]
      omega
    · cases h
  · simp only [Except.ok.injEq, Prod.mk.injEq] at h
    simp [← h.2]

/-- The sign in front of an exponent's digits, and the text behind it. -/
def exponentSign : List Char → Bool × List Char
  | '+' :: r => (false, r)
  | '-' :: r => (true, r)
  | s => (false, s)

theorem length_exponentSign (s : List Char) : (exponentSign s).2.length ≤ s.length := by
  unfold exponentSign
  split <;> simp

/-- Reads an exponent, if there is one. -/
def readExponent (cut : Fault) (s : List Char) : Except Located (Option (Bool × List Nat) × List Char) :=
  match s with
  | c :: r =>
    if c = 'e' ∨ c = 'E' then
      match readDigits cut (exponentSign r).2 with
      | .ok (ds, rest) => .ok (some ((exponentSign r).1, ds), rest)
      | .error e => .error e
    else .ok (none, c :: r)
  | [] => .ok (none, [])

theorem length_readExponent {cut : Fault} {s r : List Char} {e : Option (Bool × List Nat)}
    (h : readExponent cut s = .ok (e, r)) : r.length ≤ s.length := by
  unfold readExponent at h
  split at h
  · next c tail =>
    split at h
    · split at h
      · next hd =>
        have h1 := length_readDigits hd
        have h2 := length_exponentSign tail
        simp only [Except.ok.injEq, Prod.mk.injEq] at h
        rw [← h.2, List.length_cons]
        omega
      · cases h
    · simp only [Except.ok.injEq, Prod.mk.injEq] at h
      simp [← h.2]
  · simp only [Except.ok.injEq, Prod.mk.injEq] at h
    simp [← h.2]

/-- The minus sign in front of a number, if there is one, and the text behind it. -/
def numberSign : List Char → Bool × List Char
  | '-' :: r => (true, r)
  | s => (false, s)

theorem length_numberSign (s : List Char) : (numberSign s).2.length ≤ s.length := by
  unfold numberSign
  split <;> simp

/-- Reads a numeral; `cut` is the fault of a text that ends where a digit should stand. -/
def readNumeral (cut : Fault) (s : List Char) : Except Located (Decimal.Numeral × List Char) :=
  match readWhole cut (numberSign s).2 with
  | .error e => .error e
  | .ok (whole, r) =>
    match readFraction cut r with
    | .error e => .error e
    | .ok (fraction, r) =>
      match readExponent cut r with
      | .error e => .error e
      | .ok (exponent, r) => .ok (⟨(numberSign s).1, whole, fraction, exponent⟩, r)

theorem length_readNumeral {cut : Fault} {s r : List Char} {n : Decimal.Numeral}
    (h : readNumeral cut s = .ok (n, r)) : r.length < s.length := by
  unfold readNumeral at h
  split at h
  · cases h
  · next hw =>
    split at h
    · cases h
    · next hf =>
      split at h
      · cases h
      · next he =>
        have h0 := length_numberSign s
        have h1 := length_readWhole hw
        have h2 := length_readFraction hf
        have h3 := length_readExponent he
        simp only [Except.ok.injEq, Prod.mk.injEq] at h
        rw [← h.2]
        omega

/-- Reads a number. One that is too large shows this at its end, or where its exponent is too large for a 32-bit word. -/
def readNumber (s : List Char) : Except Located (Decimal.Number × List Char) :=
  match readNumeral (.eof .value) s with
  | .error e => .error e
  | .ok (numeral, r) =>
    match numeral.value? with
    | some n => .ok (n, r)
    | none => .error ⟨.numberOutOfRange, numeral.exponentExcess + Text.byteLength r⟩

theorem length_readNumber {s r : List Char} {n : Decimal.Number} (h : readNumber s = .ok (n, r)) :
    r.length < s.length := by
  unfold readNumber at h
  split at h
  · cases h
  · next hn =>
    split at h
    · simp only [Except.ok.injEq, Prod.mk.injEq] at h
      exact h.2 ▸ length_readNumeral hn
    · cases h

/-- Whether a character starts a number. -/
def startsNumber (c : Char) : Bool := c = '-' || c.isDigit

/-! ## Strings -/

/-- The value of a hexadecimal digit. -/
def hexDigit? (c : Char) : Option Nat :=
  if c.isDigit then some (c.toNat - 48)
  else if 'a' ≤ c ∧ c ≤ 'f' then some (c.toNat - 87)
  else if 'A' ≤ c ∧ c ≤ 'F' then some (c.toNat - 55)
  else none

/-- Reads four hexadecimal digits. A text of fewer than four bytes breaks off; any other four bytes are no digits. -/
def readHex (s : List Char) : Except Located (Nat × List Char) :=
  match s with
  | a :: b :: c :: d :: r =>
    match hexDigit? a, hexDigit? b, hexDigit? c, hexDigit? d with
    | some a, some b, some c, some d => .ok (((a * 16 + b) * 16 + c) * 16 + d, r)
    | _, _, _, _ => .error (Fault.past .invalidEscape 4 s)
  | s => .error (Fault.past (if Text.byteLength s < 4 then .eof .string else .invalidEscape) 4 s)

theorem length_readHex {s r : List Char} {n : Nat} (h : readHex s = .ok (n, r)) : r.length < s.length := by
  unfold readHex at h
  split at h
  · split at h
    · simp only [Except.ok.injEq, Prod.mk.injEq] at h
      rw [← h.2]
      simp only [List.length_cons]
      omega
    · cases h
  · cases h

/-- Whether a code unit is the first half of a pair. -/
def isHighSurrogate (n : Nat) : Bool := 0xD800 ≤ n && n ≤ 0xDBFF

/-- Whether a code unit is the second half of a pair. -/
def isLowSurrogate (n : Nat) : Bool := 0xDC00 ≤ n && n ≤ 0xDFFF

/-- Reads the second half of a pair whose first half is `high`. -/
def readLowSurrogate (high : Nat) (s : List Char) : Except Located (Char × List Char) :=
  match s with
  | '\\' :: 'u' :: r =>
    match readHex r with
    | .error e => .error e
    | .ok (low, r) =>
      if isLowSurrogate low then .ok (Char.ofNat ((high - 0xD800) * 0x400 + (low - 0xDC00) + 0x10000), r)
      else .error (Fault.past .loneSurrogate 0 r)
  | ['\\'] | [] => .error (Fault.past (.eof .string) 0 [])
  | '\\' :: r => .error (Fault.past .unfinishedSurrogate 1 r)
  | s => .error (Fault.past .unfinishedSurrogate 1 s)

theorem length_readLowSurrogate {high : Nat} {s r : List Char} {c : Char}
    (h : readLowSurrogate high s = .ok (c, r)) : r.length < s.length := by
  unfold readLowSurrogate at h
  split at h
  · split at h
    · cases h
    · next hh =>
      have := length_readHex hh
      split at h
      · simp only [Except.ok.injEq, Prod.mk.injEq] at h
        rw [← h.2]
        simp only [List.length_cons]
        omega
      · cases h
  · cases h
  · cases h
  · cases h
  · cases h

/-- Reads the digits of an escaped code unit, and those of the other half if it is one half of a pair. -/
def readCodePoint (s : List Char) : Except Located (Char × List Char) :=
  match readHex s with
  | .error e => .error e
  | .ok (n, r) =>
    if isLowSurrogate n then .error (Fault.past .loneSurrogate 0 r)
    else if isHighSurrogate n then readLowSurrogate n r
    else .ok (Char.ofNat n, r)

theorem length_readCodePoint {s r : List Char} {c : Char} (h : readCodePoint s = .ok (c, r)) :
    r.length < s.length := by
  unfold readCodePoint at h
  split at h
  · cases h
  · next hh =>
    have h1 := length_readHex hh
    split at h
    · cases h
    · split at h
      · have h2 := length_readLowSurrogate h
        omega
      · simp only [Except.ok.injEq, Prod.mk.injEq] at h
        rw [← h.2]
        exact h1

/-- The character that a letter behind a backslash stands for. -/
def shortEscape? (c : Char) : Option Char :=
  match c with
  | '"' => some '"'
  | '\\' => some '\\'
  | '/' => some '/'
  | 'b' => some '\x08'
  | 'f' => some '\x0c'
  | 'n' => some '\n'
  | 'r' => some '\r'
  | 't' => some '\t'
  | _ => none

/-- Reads what follows a backslash. -/
def readEscape (s : List Char) : Except Located (Char × List Char) :=
  match s with
  | [] => .error (Fault.past (.eof .string) 0 [])
  | c :: r =>
    if c = 'u' then readCodePoint r
    else
      match shortEscape? c with
      | some d => .ok (d, r)
      | none => .error (Fault.past .invalidEscape 1 s)

theorem length_readEscape {s r : List Char} {c : Char} (h : readEscape s = .ok (c, r)) : r.length < s.length := by
  unfold readEscape at h
  split at h
  · cases h
  · split at h
    · have := length_readCodePoint h
      simp only [List.length_cons]
      omega
    · split at h
      · simp only [Except.ok.injEq, Prod.mk.injEq] at h
        simp [← h.2]
      · cases h

/-- Whether a character may not stand unescaped in a string. -/
def isControl (c : Char) : Bool := c.toNat < 0x20

/-- Reads a string from behind its opening quote, after the characters `before`, the last of them first. -/
def readStringAfter (before : List Char) (s : List Char) : Except Located (List Char × List Char) :=
  match s with
  | [] => .error (Fault.past (.eof .string) 0 [])
  | c :: r =>
    if c = '"' then .ok (before.reverse, r)
    else if c = '\\' then
      match _hd : readEscape r with
      | .error e => .error e
      | .ok (d, rest) => readStringAfter (d :: before) rest
    else if isControl c then .error (Fault.past .controlCharacter 1 s)
    else readStringAfter (c :: before) r
termination_by s.length
decreasing_by
  · have := length_readEscape _hd
    simp only [List.length_cons]
    omega
  · simp

/-- Reads a string from behind its opening quote. -/
def readString (s : List Char) : Except Located (List Char × List Char) := readStringAfter [] s

theorem length_readStringAfter {before s t r : List Char} (h : readStringAfter before s = .ok (t, r)) :
    r.length < s.length := by
  fun_induction readStringAfter before s with
  | case1 => cases h
  | case2 =>
    simp only [Except.ok.injEq, Prod.mk.injEq] at h
    simp [← h.2]
  | case3 => cases h
  | case4 before tail d rest he _ ih =>
    have h1 := ih h
    have h2 := length_readEscape he
    simp only [List.length_cons]
    omega
  | case5 => cases h
  | case6 before c tail _ _ _ ih =>
    have := ih h
    simp only [List.length_cons]
    omega

theorem length_readString {s t r : List Char} (h : readString s = .ok (t, r)) : r.length < s.length :=
  length_readStringAfter h

/-! ## Lists and objects -/

/-- What comes next in a list or an object: its end or a further element, with the text behind or at it. -/
inductive Next where
  | close (rest : List Char)
  | item (rest : List Char)

/-- Looks for the next element of a list. -/
def nextElement (first : Bool) (s : List Char) : Except Located Next :=
  match skipSpace s with
  | [] => .error (Fault.past (.eof .list) 0 [])
  | c :: r =>
    if c = ']' then .ok (.close r)
    else if first then .ok (.item (c :: r))
    else if c = ',' then
      match skipSpace r with
      | [] => .error (Fault.past (.eof .value) 0 [])
      | d :: t => if d = ']' then .error (Fault.past .trailingComma 1 (d :: t)) else .ok (.item (d :: t))
    else .error (Fault.past .expectedListEnd 1 (c :: r))

theorem length_nextElement_item {first : Bool} {s r : List Char} (h : nextElement first s = .ok (.item r)) :
    r.length ≤ s.length := by
  have hs := length_skipSpace s
  unfold nextElement at h
  split at h
  · cases h
  · next c t ht =>
    rw [ht, List.length_cons] at hs
    split at h
    · cases h
    · split at h
      · cases h
        simpa using hs
      · split at h
        · have hr := length_skipSpace t
          split at h
          · cases h
          · next hd =>
            rw [hd] at hr
            split at h
            · cases h
            · cases h
              omega
        · cases h

theorem length_nextElement_close {first : Bool} {s r : List Char} (h : nextElement first s = .ok (.close r)) :
    r.length < s.length := by
  have hs := length_skipSpace s
  unfold nextElement at h
  split at h
  · cases h
  · next c t ht =>
    rw [ht, List.length_cons] at hs
    split at h
    · cases h
      omega
    · split at h
      · cases h
      · split at h
        · split at h
          · cases h
          · split at h <;> cases h
        · cases h

/-- Looks for the next key of an object; an item's rest stands behind the opening quote of the key. -/
def nextKey (first : Bool) (s : List Char) : Except Located Next :=
  match skipSpace s with
  | [] => .error (Fault.past (.eof .object) 0 [])
  | c :: r =>
    if c = '\x7d' then .ok (.close r)
    else if first then
      if c = '"' then .ok (.item r) else .error (Fault.past .expectedKey 1 (c :: r))
    else if c = ',' then
      match skipSpace r with
      | [] => .error (Fault.past (.eof .value) 0 [])
      | d :: t =>
        if d = '"' then .ok (.item t)
        else if d = '\x7d' then .error (Fault.past .trailingComma 1 (d :: t))
        else .error (Fault.past .expectedKey 1 (d :: t))
    else .error (Fault.past .expectedObjectEnd 1 (c :: r))

theorem length_nextKey_item {first : Bool} {s r : List Char} (h : nextKey first s = .ok (.item r)) :
    r.length < s.length := by
  have hs := length_skipSpace s
  unfold nextKey at h
  split at h
  · cases h
  · next c t ht =>
    rw [ht, List.length_cons] at hs
    split at h
    · cases h
    · split at h
      · split at h
        · cases h
          omega
        · cases h
      · split at h
        · have hr := length_skipSpace t
          split at h
          · cases h
          · next hd =>
            rw [hd, List.length_cons] at hr
            split at h
            · cases h
              omega
            · split at h <;> cases h
        · cases h

/-- Reads the colon behind a key. -/
def readColon (s : List Char) : Except Located (List Char) :=
  match skipSpace s with
  | [] => .error (Fault.past (.eof .object) 0 [])
  | c :: r => if c = ':' then .ok r else .error (Fault.past .expectedColon 1 (c :: r))

theorem length_readColon {s r : List Char} (h : readColon s = .ok r) : r.length < s.length := by
  have hs := length_skipSpace s
  unfold readColon at h
  split at h
  · cases h
  · next hc =>
    rw [hc, List.length_cons] at hs
    split at h
    · cases h
      omega
    · cases h

end Polypath.Json
