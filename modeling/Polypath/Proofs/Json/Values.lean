import Polypath.Proofs.Json.Grammar

/-!
# Values that are numbers or lists of numbers

What a value gives where a number or a list of numbers is wanted is a matter of its tokens alone: reading it gives just
that, whatever the space in it, and leaves what follows the value (`readWord_spaced`, `readCoords_spaced_value`). What
is read there is a value (`readWord_eq_ok`, `readCoords_eq_ok`).
-/

namespace Polypath.Json

open Decimal

/-! ## What tokens give -/

/-- The number that a value is. -/
def numberOf? : List Token → Option Number
  | [.number n] => n.numeral.value?
  | _ => none

/-- The unsigned integer of at most `bits` bits that a value is. -/
def wordOf? (bits : Nat) (v : List Token) : Option Nat :=
  match numberOf? v with
  | some (.natural n) => if n < Nat.pow 2 bits then some n else none
  | _ => none

/-- The coordinate that a value is. -/
def coordOf? (v : List Token) : Option Coord := (numberOf? v).map Number.toCoord

/-- The coordinates in the rest of a list, behind an element. -/
def furtherCoords? : List Token → Option (List Coord)
  | [.closing .list] => some []
  | .comma :: .number n :: r => (coordOf? [.number n]).bind fun c => (furtherCoords? r).map (c :: ·)
  | _ => none

/-- The coordinates that a list gives. -/
def coordsOf? : List Token → Option (List Coord)
  | [.opening .list, .closing .list] => some []
  | .opening .list :: r => furtherCoords? (.comma :: r)
  | _ => none

section Tokens

variable {t : Token} {v r ts : List Token}

theorem numberOf?_of_ne (ht : ∀ n, t ≠ .number n) : numberOf? (t :: ts) = none := by
  unfold numberOf?
  split
  next heq => exact absurd (List.cons.inj heq).1 (ht _)
  next => rfl

theorem furtherCoords?_of_ne (ht : ∀ n, t ≠ .number n) : furtherCoords? (.comma :: t :: ts) = none := by
  unfold furtherCoords?
  split
  next heq => cases heq
  next heq => exact absurd (List.cons.inj (List.cons.inj heq).2).1 (ht _)
  next => rfl

theorem coordsOf?_of_ne (ht : t ≠ .opening .list) : coordsOf? (t :: ts) = none := by
  unfold coordsOf?
  split
  next heq => exact absurd (List.cons.inj heq).1 ht
  next heq => exact absurd (List.cons.inj heq).1 ht
  next => rfl

/-- A value is a number, or it starts with something else. -/
theorem Derives.number_or (h : Derives .value v) :
    (∃ n, v = [.number n]) ∨ ∃ t ts, v = t :: ts ∧ t.startsValue = true ∧ ∀ n, t ≠ .number n := by
  obtain ⟨t, ts, rfl, ht⟩ := h.value_starts
  by_cases hnumber : ∃ n, t = .number n
  · obtain ⟨n, rfl⟩ := hnumber
    cases h
    exact .inl ⟨n, rfl⟩
  · exact .inr ⟨t, ts, rfl, ht, fun n hn => hnumber ⟨n, hn⟩⟩

theorem furtherCoords?_value (hv : Derives .value v) (r : List Token) :
    furtherCoords? (.comma :: (v ++ r)) = (coordOf? v).bind fun c => (furtherCoords? r).map (c :: ·) := by
  obtain ⟨n, rfl⟩ | ⟨t, ts, rfl, -, ht⟩ := hv.number_or
  · rw [List.singleton_append, furtherCoords?]
  · rw [List.cons_append, furtherCoords?_of_ne ht, coordOf?, numberOf?_of_ne ht]
    rfl

theorem coordsOf?_filled (hv : Derives .value v) (r : List Token) :
    coordsOf? (.opening .list :: (v ++ r)) = furtherCoords? (.comma :: (v ++ r)) := by
  obtain ⟨t, ts, rfl, ht⟩ := hv.value_starts
  unfold coordsOf?
  split
  next heq =>
    injection heq with _ heq
    injection heq with heq
    subst heq
    cases ht
  next heq =>
    cases heq
    rfl
  next hother => exact absurd rfl (hother _)

end Tokens

/-! ## Numbers -/

section Numbers

variable {v : List Token} {s rest : List Char}

/-- A value gives a number exactly if it is one in range. -/
theorem wantNumber_spaced (wanted : Wanted) (hv : Derives .value v) (hs : Spaced v s) (h : endsNumber rest = true) :
    (wantNumber wanted (s ++ rest)).toOption = (numberOf? v).map fun n => (n, rest) := by
  obtain ⟨n, rfl⟩ | ⟨t, ts, rfl, ht, hne⟩ := hv.number_or
  · cases hs with
    | cons _ hgap hs =>
      cases hs
      rw [List.append_nil, List.append_assoc]
      exact toOption_wantNumber wanted hgap n.writes h
  · obtain ⟨c, r, hskip, hstarts⟩ := hs.skipSpace_starts ht rest
    have hc : startsNumber c = false := by
      rw [Bool.eq_false_iff]
      intro hc
      obtain ⟨n, hn⟩ := hstarts.number hc
      exact hne n hn
    rw [wantNumber, hskip, numberOf?_of_ne hne]
    simp only [hc, Bool.false_eq_true, if_false]
    rfl

theorem readWord_spaced (bits : Nat) (hv : Derives .value v) (hs : Spaced v s) (h : endsNumber rest = true) :
    (readWord bits (s ++ rest)).toOption = (wordOf? bits v).map fun n => (n, rest) := by
  have hread := wantNumber_spaced (.word bits) hv hs h
  rw [readWord, wordOf?]
  cases hn : numberOf? v with
  | none =>
    rw [hn] at hread
    obtain ⟨e, he⟩ := Outcome.toOption_eq_none_iff.mp hread
    simp only [he]
    rfl
  | some n =>
    rw [hn] at hread
    simp only [Outcome.toOption_eq_some_iff.mp hread]
    cases n with
    | natural n =>
      by_cases hlt : n < Nat.pow 2 bits
      · simp only [if_pos hlt]
        rfl
      · simp only [if_neg hlt]
        rfl
    | negative n => rfl
    | real c => rfl

theorem readCoord_spaced (hv : Derives .value v) (hs : Spaced v s) (h : endsNumber rest = true) :
    (readCoord (s ++ rest)).toOption = (coordOf? v).map fun c => (c, rest) := by
  have hread := wantNumber_spaced .real hv hs h
  rw [readCoord, coordOf?]
  cases hn : numberOf? v with
  | none =>
    rw [hn] at hread
    obtain ⟨e, he⟩ := Outcome.toOption_eq_none_iff.mp hread
    simp only [he]
    rfl
  | some n =>
    rw [hn] at hread
    simp only [Outcome.toOption_eq_some_iff.mp hread]
    rfl

end Numbers

/-! ## Lists of numbers -/

section Lists

variable {v r : List Token} {s t u rest : List Char} {before : List Coord}

theorem readCoord_skipSpace (s : List Char) : readCoord (skipSpace s) = readCoord s := by
  rw [readCoord, readCoord, wantNumber, wantNumber, skipSpace_skipSpace]

theorem Derives.skipSpace_starts (hv : Derives .value v) (ht : Spaced v t) (rest : List Char) :
    ∃ c r, skipSpace (t ++ rest) = c :: r ∧ ∀ b : Bracket, c ≠ b.closing := by
  obtain ⟨first, ts, rfl, hfirst⟩ := hv.value_starts
  obtain ⟨c, r, hskip, hstarts⟩ := ht.skipSpace_starts hfirst rest
  exact ⟨c, r, hskip, hstarts.closing⟩

/-- The rest of a list gives its coordinates, behind those that are read already. -/
def ReadsTail (r : List Token) : Prop :=
  ∀ {before : List Coord} {s : List Char} (rest : List Char), before ≠ [] → Spaced r s →
    (readCoordsAfter before (s ++ rest)).toOption = (furtherCoords? r).map fun cs => (before.reverse ++ cs, rest)

/-- An element is read, and then the rest of its list. -/
theorem readCoordsAfter_value (hv : Derives .value v) (ht : Spaced v t) (hr : Derives (.tail .list) r)
    (htail : ReadsTail r) (hu : Spaced r u)
    (hnext : nextElement before.isEmpty s = .ok (.item (skipSpace (t ++ (u ++ rest))))) :
    (readCoordsAfter before s).toOption =
      (furtherCoords? (.comma :: (v ++ r))).map fun cs => (before.reverse ++ cs, rest) := by
  have hread := readCoord_spaced hv ht (hr.endsNumber hu rest)
  rw [← readCoord_skipSpace] at hread
  rw [furtherCoords?_value hv]
  cases hc : coordOf? v with
  | none =>
    rw [hc] at hread
    obtain ⟨e, he⟩ := Outcome.toOption_eq_none_iff.mp hread
    rw [readCoordsAfter_item_error hnext he]
    rfl
  | some c =>
    rw [hc] at hread
    rw [readCoordsAfter_item hnext (Outcome.toOption_eq_some_iff.mp hread), htail rest (List.cons_ne_nil _ _) hu]
    cases furtherCoords? r with
    | none => rfl
    | some cs => simp

theorem readsTail_of_derives (h : Derives (.tail .list) r) : ReadsTail r := by
  -- the induction is on all derivations, and only those of the rest of a list are of this phrase
  generalize hp : Phrase.tail .list = p at h
  induction h with
  | scalar | empty | filled => cases hp
  | close b =>
    cases hp
    intro before s rest _ hs
    cases hs with
    | cons _ hgap hs =>
      cases hs
      rw [List.append_nil, List.append_assoc, Token.text, Bracket.closing, List.singleton_append,
        readCoordsAfter_close (nextElement_close _ (skipSpace_gap hgap rfl))]
      simp [furtherCoords?, Except.toOption]
  | @further b lead v r hlead hv hr _ ih =>
    cases hp
    cases hlead
    show ReadsTail (.comma :: (v ++ r))
    intro before s rest hbefore hs
    cases hs with
    | cons _ hgap hs =>
      obtain ⟨t, u, rfl, ht, hu⟩ := hs.split
      obtain ⟨c, w, hskip, hclosing⟩ := hv.skipSpace_starts ht (u ++ rest)
      refine readCoordsAfter_value hv ht hr (ih rfl) hu ?_
      rw [List.isEmpty_eq_false_iff.mpr hbefore, hskip, List.append_assoc, List.append_assoc, List.append_assoc]
      exact nextElement_further (skipSpace_gap hgap rfl) hskip (hclosing .list)

theorem readCoords_empty {s : List Char} (hs : Spaced [.opening .list, .closing .list] s) (rest : List Char) :
    readCoords (s ++ rest) = .ok ([], rest) := by
  cases hs with
  | cons _ hgap hs =>
    cases hs with
    | cons _ hgap' hs =>
      cases hs
      simp only [Token.text, Bracket.opening, Bracket.closing, List.append_assoc, List.cons_append, List.nil_append,
        List.append_nil]
      rw [readCoords_open (skipSpace_gap hgap rfl)]
      exact readCoordsAfter_close (nextElement_close true (skipSpace_gap hgap' rfl))

theorem readCoords_filled (hv : Derives .value v) (hr : Derives (.tail .list) r)
    (hs : Spaced (.opening .list :: (v ++ r)) s) (rest : List Char) :
    (readCoords (s ++ rest)).toOption = (furtherCoords? (.comma :: (v ++ r))).map fun cs => (cs, rest) := by
  cases hs with
  | cons _ hgap hs =>
    obtain ⟨t, u, rfl, ht, hu⟩ := hs.split
    obtain ⟨c, w, hskip, hclosing⟩ := hv.skipSpace_starts ht (u ++ rest)
    simp only [Token.text, Bracket.opening, List.append_assoc, List.cons_append, List.nil_append]
    rw [readCoords_open (skipSpace_gap hgap rfl)]
    refine readCoordsAfter_value hv ht hr (readsTail_of_derives hr) hu ?_
    rw [hskip]
    exact nextElement_first hskip (hclosing .list)

/-- A value gives coordinates exactly if it is a list of numbers in range. -/
theorem readCoords_spaced_value (hv : Derives .value v) (hs : Spaced v s) (rest : List Char) :
    (readCoords (s ++ rest)).toOption = (coordsOf? v).map fun cs => (cs, rest) := by
  by_cases hlist : v.head? = some (.opening .list)
  · cases hv with
    | @scalar t ht =>
      cases hlist
      cases ht
    | empty b =>
      cases hlist
      rw [readCoords_empty hs rest]
      rfl
    | filled hlead hv hr =>
      cases hlist
      cases hlead
      rw [List.nil_append, coordsOf?_filled hv]
      exact readCoords_filled hv hr hs rest
  · obtain ⟨first, ts, rfl, hfirst⟩ := hv.value_starts
    have hne : first ≠ .opening .list := fun h => hlist (congrArg some h)
    obtain ⟨c, w, hskip, hstarts⟩ := hs.skipSpace_starts hfirst rest
    have hc : ¬ c = '[' := fun hc => hne (hstarts.list hc)
    rw [readCoords, hskip, coordsOf?_of_ne hne]
    simp only [if_neg hc]
    rfl

end Lists

/-! ## What is read -/

section Read

variable {s r : List Char}

theorem wantNumber_eq_ok {wanted : Wanted} {value : Number} (h : wantNumber wanted s = .ok (value, r)) :
    ∃ n t, s = t ++ r ∧ Spaced [.number n] t := by
  unfold wantNumber at h
  split at h
  next => cases h
  next c t hs =>
    obtain ⟨gap, rfl, hgap, -⟩ := skipSpace_eq_cons hs
    split at h
    next =>
      unfold readNumber at h
      split at h
      next => cases h
      next n rest hread =>
        obtain ⟨raw, hsplit, hwrites⟩ := readNumeral_eq_ok hread
        split at h
        next =>
          cases h
          exact ⟨⟨raw, n, hwrites⟩, gap ++ (raw ++ []), by simp [hsplit], .cons (.number ⟨raw, n, hwrites⟩) hgap .nil⟩
        next => cases h
    next => cases h

theorem readWord_eq_ok {bits n : Nat} (h : readWord bits s = .ok (n, r)) :
    ∃ v t, s = t ++ r ∧ Spaced v t ∧ Derives .value v := by
  unfold readWord at h
  split at h
  next => cases h
  next hread =>
    split at h
    next =>
      cases h
      obtain ⟨n, t, hsplit, ht⟩ := wantNumber_eq_ok hread
      exact ⟨_, t, hsplit, ht, .scalar rfl⟩
    next => cases h
  next => cases h
  next => cases h

theorem readCoord_eq_ok {c : Coord} (h : readCoord s = .ok (c, r)) : ∃ n t, s = t ++ r ∧ Spaced [.number n] t := by
  unfold readCoord at h
  split at h
  next => cases h
  next hread =>
    cases h
    exact wantNumber_eq_ok hread

/-- What is taken before an element or at the end of a list. -/
theorem nextElement_eq_ok {first : Bool} {next : Next} (h : nextElement first s = .ok next) :
    (∃ r t, next = .close r ∧ s = t ++ r ∧ Spaced [.closing .list] t) ∨
    ∃ r t gap, next = .item r ∧ s = t ++ (gap ++ r) ∧ Spaced (if first then [] else [.comma]) t ∧
      ∀ c ∈ gap, isSpace c = true := by
  unfold nextElement at h
  split at h
  next => cases h
  next c t hs =>
    obtain ⟨gap, rfl, hgap, -⟩ := skipSpace_eq_cons hs
    split at h
    next hc =>
      cases h
      exact .inl ⟨t, gap ++ ([']'] ++ []), rfl, by simp [hc], .cons (.closing .list) hgap .nil⟩
    next =>
      split at h
      next hfirst =>
        cases h
        rw [hfirst]
        exact .inr ⟨c :: t, [], gap, rfl, rfl, .nil, hgap⟩
      next hfirst =>
        split at h
        next hc =>
          split at h
          next => cases h
          next d u hr =>
            split at h
            next => cases h
            next =>
              cases h
              obtain ⟨gap', rfl, hgap', -⟩ := skipSpace_eq_cons hr
              rw [if_neg hfirst]
              exact .inr ⟨d :: u, gap ++ ([','] ++ []), gap', rfl, by simp [hc], .cons .comma hgap .nil, hgap'⟩
        next => cases h

/-- What is read for coordinates is the rest of a list, or all of it behind its opening bracket. -/
theorem readCoordsAfter_eq_ok {before cs : List Coord} (h : readCoordsAfter before s = .ok (cs, r)) :
    ∃ ts t, s = t ++ r ∧ Spaced ts t ∧
      if before.isEmpty then Derives .value (.opening .list :: ts) else Derives (.tail .list) ts := by
  fun_induction readCoordsAfter before s with
  | case1 => cases h
  | case2 before s rest hnext =>
    cases h
    obtain ⟨r, t, hclose, rfl, ht⟩ | ⟨r, t, gap, hitem, -⟩ := nextElement_eq_ok hnext
    · cases hclose
      refine ⟨_, t, rfl, ht, ?_⟩
      split
      · exact .empty .list
      · exact .close .list
    · cases hitem
  | case3 => cases h
  | case4 before s item hnext c rest hread ih =>
    obtain ⟨r, t, hclose, -⟩ | ⟨r, t, gap, hitem, rfl, ht, hgap⟩ := nextElement_eq_ok hnext
    · cases hclose
    · cases hitem
      obtain ⟨n, u, rfl, hu⟩ := readCoord_eq_ok hread
      obtain ⟨ts, w, rfl, hw, hderives⟩ := ih h
      have hderives : Derives (.tail .list) ts := hderives
      refine ⟨_, t ++ ((gap ++ u) ++ w), by simp only [List.append_assoc], ht.append ((hu.gap hgap).append hw), ?_⟩
      split
      · exact .filled .list (.scalar rfl) hderives
      · exact .further .list (.scalar rfl) hderives

theorem readCoords_eq_ok {cs : List Coord} (h : readCoords s = .ok (cs, r)) :
    ∃ v t, s = t ++ r ∧ Spaced v t ∧ Derives .value v := by
  unfold readCoords at h
  split at h
  next => cases h
  next c t hs =>
    split at h
    next hc =>
      obtain ⟨gap, rfl, hgap, -⟩ := skipSpace_eq_cons hs
      obtain ⟨ts, u, rfl, hu, hderives⟩ := readCoordsAfter_eq_ok h
      exact ⟨_, gap ++ (['['] ++ u), by simp [hc], .cons (.opening .list) hgap hu, hderives⟩
    next => cases h

end Read

end Polypath.Json
