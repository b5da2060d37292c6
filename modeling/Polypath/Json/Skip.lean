import Polypath.Json.Scan

/-!
# Skipping values

A value that nobody asks for is read over, whatever its depth: the brackets that are still open are kept in a list.
Numbers may be too large and surrogates may stand alone; everything else has to be in order.
-/

namespace Polypath.Json

/-- Reads what follows a backslash in a string that is skipped. -/
def skipEscape (s : List Char) : Except Located (List Char) :=
  match s with
  | [] => .error (Fault.past (.eof .string) 0 [])
  | c :: r =>
    if c = 'u' then
      match readHex r with
      | .ok (_, r) => .ok r
      | .error e => .error e
    else if (shortEscape? c).isSome then .ok r
    else .error (Fault.past .invalidEscape 1 s)

theorem length_skipEscape {s r : List Char} (h : skipEscape s = .ok r) : r.length < s.length := by
  unfold skipEscape at h
  split at h
  · cases h
  · split at h
    · split at h
      · next hh =>
        have := length_readHex hh
        cases h
        simp only [List.length_cons]
        omega
      · cases h
    · split at h
      · cases h
        simp
      · cases h

/-- Skips a string from behind its opening quote. A control character shows in front of itself. -/
def skipString (s : List Char) : Except Located (List Char) :=
  match s with
  | [] => .error (Fault.past (.eof .string) 0 [])
  | c :: r =>
    if c = '"' then .ok r
    else if c = '\\' then
      match _hd : skipEscape r with
      | .error e => .error e
      | .ok rest => skipString rest
    else if isControl c then .error (Fault.past .controlCharacter 0 s)
    else skipString r
termination_by s.length
decreasing_by
  · have := length_skipEscape _hd
    simp only [List.length_cons]
    omega
  · simp

theorem length_skipString {s r : List Char} (h : skipString s = .ok r) : r.length < s.length := by
  fun_induction skipString s with
  | case1 => cases h
  | case2 => cases h; simp
  | case3 => cases h
  | case4 tail rest he _ ih =>
    have h1 := ih h
    have h2 := length_skipEscape he
    simp only [List.length_cons]
    omega
  | case5 => cases h
  | case6 c tail _ _ _ ih =>
    have := ih h
    simp only [List.length_cons]
    omega

/-- Skips a value without parts, whose first character is `c`. -/
def skipScalar (c : Char) (r : List Char) : Except Located (List Char) :=
  if c = 'n' then readIdent ['u', 'l', 'l'] r
  else if c = 't' then readIdent ['r', 'u', 'e'] r
  else if c = 'f' then readIdent ['a', 'l', 's', 'e'] r
  else if c = '"' then skipString r
  else if startsNumber c then
    match readNumeral .invalidNumber (c :: r) with
    | .ok (_, r) => .ok r
    | .error e => .error e
  else .error (Fault.past .expectedValue 1 (c :: r))

theorem length_skipScalar {c : Char} {s r : List Char} (h : skipScalar c s = .ok r) : r.length ≤ s.length := by
  unfold skipScalar at h
  split at h
  · exact length_readIdent h
  split at h
  · exact length_readIdent h
  split at h
  · exact length_readIdent h
  split at h
  · exact Nat.le_of_lt (length_skipString h)
  split at h
  · split at h
    · next hn =>
      have := length_readNumeral hn
      cases h
      simpa [Nat.lt_succ_iff] using this
    · cases h
  · cases h

/-- Skips a key and its colon. -/
def skipKey (s : List Char) : Except Located (List Char) :=
  match skipSpace s with
  | [] => .error (Fault.past (.eof .object) 0 [])
  | c :: r =>
    if c = '"' then
      match skipString r with
      | .ok r => readColon r
      | .error e => .error e
    else .error (Fault.past .expectedKey 1 (c :: r))

theorem length_skipKey {s r : List Char} (h : skipKey s = .ok r) : r.length < s.length := by
  have hs := length_skipSpace s
  unfold skipKey at h
  split at h
  · cases h
  · next hc =>
    rw [hc, List.length_cons] at hs
    split at h
    · split at h
      · next hk =>
        have h1 := length_skipString hk
        have h2 := length_readColon h
        omega
      · cases h
    · cases h

/-- The brackets that can be open around a value. -/
inductive Bracket where
  | list
  | object
deriving DecidableEq, Repr

namespace Bracket

/-- The character that closes a bracket. -/
def closing : Bracket → Char
  | .list => ']'
  | .object => '\x7d'

/-- The fault of a text that ends inside a bracket. -/
def cut : Bracket → Fault
  | .list => .eof .list
  | .object => .eof .object

/-- The fault of a character that can neither follow a value nor close the bracket. -/
def misfit : Bracket → Fault
  | .list => .expectedListEnd
  | .object => .expectedObjectEnd

/-- Skips what stands before a value inside a bracket: a key, in an object. -/
def lead : Bracket → List Char → Except Located (List Char)
  | .list, s => .ok s
  | .object, s => skipKey s

end Bracket

theorem Bracket.length_lead {b : Bracket} {s r : List Char} (h : b.lead s = .ok r) : r.length ≤ s.length := by
  cases b with
  | list => simp_all [lead]
  | object => exact Nat.le_of_lt (length_skipKey h)

/-- The bracket that a character opens. -/
def opening? (c : Char) : Option Bracket :=
  if c = '[' then some .list else if c = '\x7b' then some .object else none

/-- Skips to the end of the outermost value, inside the given open brackets, the innermost first. Either a value comes
next, or a value has just ended. -/
def skipWithin (valueNext : Bool) (brackets : List Bracket) (s : List Char) : Except Located (List Char) :=
  match valueNext, brackets with
  | true, brackets =>
    match _hs : skipSpace s with
    | [] => .error (Fault.past (.eof .value) 0 [])
    | c :: r =>
      match opening? c with
      | none =>
        match _hc : skipScalar c r with
        | .error e => .error e
        | .ok rest => skipWithin false brackets rest
      | some b =>
        match _ht : skipSpace r with
        | [] => .error (b.cut.past 0 [])
        | d :: t =>
          if d = b.closing then skipWithin false brackets t
          else
            match _hl : b.lead r with
            | .error e => .error e
            | .ok rest => skipWithin true (b :: brackets) rest
  | false, [] => .ok s
  | false, b :: outer =>
    match _hs : skipSpace s with
    | [] => .error (b.cut.past 0 [])
    | c :: r =>
      if c = b.closing then skipWithin false outer r
      else if c = ',' then
        match _hl : b.lead r with
        | .error e => .error e
        | .ok rest => skipWithin true (b :: outer) rest
      else .error (b.misfit.past 1 (c :: r))
termination_by s.length
decreasing_by
  all_goals have hlen := length_skipSpace s
  all_goals rw [_hs, List.length_cons] at hlen
  · have := length_skipScalar _hc
    omega
  · have := length_skipSpace r
    rw [_ht, List.length_cons] at this
    omega
  · have := Bracket.length_lead _hl
    omega
  · omega
  · have := Bracket.length_lead _hl
    omega

/-- Skips one value. -/
def skipValue (s : List Char) : Except Located (List Char) := skipWithin true [] s

theorem length_skipWithin {valueNext : Bool} {brackets : List Bracket} {s r : List Char}
    (h : skipWithin valueNext brackets s = .ok r) : r.length ≤ s.length ∧ (valueNext → r.length < s.length) := by
  fun_induction skipWithin valueNext brackets s with
  | case1 => cases h
  | case2 => cases h
  | case3 s brackets c tail hs ho rest hc ih =>
    have h1 := length_skipSpace s
    have h2 := length_skipScalar hc
    have h3 := (ih h).1
    rw [hs, List.length_cons] at h1
    exact ⟨by omega, fun _ => by omega⟩
  | case4 => cases h
  | case5 s brackets c tail hs b ho t ht ih =>
    have h1 := length_skipSpace s
    have h2 := length_skipSpace tail
    have h3 := (ih h).1
    rw [hs, List.length_cons] at h1
    rw [ht, List.length_cons] at h2
    exact ⟨by omega, fun _ => by omega⟩
  | case6 => cases h
  | case7 s brackets c tail hs b ho d t ht hd rest hl ih =>
    have h1 := length_skipSpace s
    have h2 := Bracket.length_lead hl
    have h3 := (ih h).1
    rw [hs, List.length_cons] at h1
    exact ⟨by omega, fun _ => by omega⟩
  | case8 => cases h; simp
  | case9 => cases h
  | case10 s b outer tail hs ih =>
    have h1 := length_skipSpace s
    have h3 := (ih h).1
    rw [hs, List.length_cons] at h1
    exact ⟨by omega, by simp⟩
  | case11 => cases h
  | case12 s b outer tail rest hl hs _ ih =>
    have h1 := length_skipSpace s
    have h2 := Bracket.length_lead hl
    have h3 := (ih h).1
    rw [hs, List.length_cons] at h1
    exact ⟨by omega, by simp⟩
  | case13 => cases h

theorem length_skipValue {s r : List Char} (h : skipValue s = .ok r) : r.length < s.length :=
  (length_skipWithin h).2 rfl

end Polypath.Json
