import Polypath.Proofs.Json.Documents

/-!
# Two printed forms of one document

A coordinate that is not finite is printed as `null`, which is no number. Reading goes from left to right, so a printed
path with such coordinates is refused at the first of them: the finite ones in front of it are read one after the other
(`elements_of_null`), and the text in front of it has no letter `n` in it, so that it is the first `null` of the
text (`readPath_of_null`). This is said for any space between the parts, and so the two printed forms of a path
are read alike: both as one path or both not at all (`printed_forms_read_alike`).
-/

namespace Polypath.Json

/-! ## The letter that starts a null -/

/-- The text of a coordinate that is not finite. -/
def nullText : List Char := ['n', 'u', 'l', 'l']

theorem ne_n_of_isSpace {gap : List Char} (hgap : ∀ c ∈ gap, isSpace c = true) : ∀ c ∈ gap, c ≠ 'n' := by
  rintro c hc rfl
  exact absurd (hgap 'n' hc) (by decide)

theorem ne_n_of_isDigit {ds : List Char} (hds : ∀ c ∈ ds, c.isDigit = true) : ∀ c ∈ ds, c ≠ 'n' := by
  rintro c hc rfl
  exact absurd (hds 'n' hc) (by decide)

/-- A spelled number has no letter `n`. -/
theorem ne_n_of_text {s : Decimal.Spelling} (hs : s.Proper) : ∀ c ∈ s.text, c ≠ 'n' := by
  have hfraction : ∀ c ∈ s.fractionText, c ≠ 'n' := by
    unfold Decimal.Spelling.fractionText
    cases hf : s.fraction with
    | none => exact List.forall_mem_nil _
    | some ds => exact List.forall_mem_cons.mpr ⟨by decide, ne_n_of_isDigit (hs.fraction ds hf).2⟩
  have hexponent : ∀ c ∈ s.exponentText, c ≠ 'n' := by
    unfold Decimal.Spelling.exponentText
    cases he : s.exponent with
    | none => exact List.forall_mem_nil _
    | some e =>
      refine List.forall_mem_cons.mpr ⟨by decide, List.forall_mem_cons.mpr ⟨?_, ne_n_of_isDigit (hs.exponent e he).2⟩⟩
      split <;> decide
  unfold Decimal.Spelling.text
  refine List.forall_mem_append.mpr ⟨?_, ?_⟩
  · split
    · exact List.forall_mem_singleton.mpr (by decide)
    · exact List.forall_mem_nil _
  · exact List.forall_mem_append.mpr ⟨ne_n_of_isDigit hs.whole.2, List.forall_mem_append.mpr ⟨hfraction, hexponent⟩⟩

theorem ne_n_of_coordText {c : Coord} (hc : c.isFinite = true) : ∀ d ∈ coordText c, d ≠ 'n' := by
  rw [coordText, if_pos hc, ← text_spelling]
  exact ne_n_of_text (proper_spelling hc)

/-! ## Lists with a null -/

section Lists

variable {c : Coord} {values : List Coord} {gap rest : List Char}

/-- The fault of a null, with the text behind it unread. -/
def nullFault (unread : List Char) : Located := Fault.past (.wrongType .null .real) 0 unread

theorem coordText_eq_null (hc : c.isFinite = false) : coordText c = nullText := by
  rw [coordText, hc]
  rfl

theorem readCoord_null (hgap : ∀ c ∈ gap, isSpace c = true) (rest : List Char) :
    readCoord (gap ++ (nullText ++ rest)) = .error (nullFault rest) := by
  have hwant : wantNumber .real (gap ++ (nullText ++ rest)) = .error (nullFault rest) := by
    rw [nullText, List.cons_append, wantNumber, skipSpace_append hgap, skipSpace_cons rfl]
    rfl
  rw [readCoord, hwant]

/-- Where a text is cut in front of its first null: nothing of the null is in the first part. -/
structure SplitAtNull (text before after : List Char) : Prop where
  text_eq : text = before ++ (nullText ++ after)
  first : ∀ c ∈ before, c ≠ 'n'

theorem SplitAtNull.prepend {text before after : List Char} (h : SplitAtNull text before after) {front : List Char}
    (hfront : ∀ c ∈ front, c ≠ 'n') : SplitAtNull (front ++ text) (front ++ before) after :=
  ⟨by rw [h.text_eq, List.append_assoc], List.forall_mem_append.mpr ⟨hfront, h.first⟩⟩

theorem SplitAtNull.append {text before after : List Char} (h : SplitAtNull text before after) (rest : List Char) :
    SplitAtNull (text ++ rest) before (after ++ rest) :=
  ⟨by rw [h.text_eq, List.append_assoc, List.append_assoc], h.first⟩

/-- Every printed coordinate starts an element of a list. -/
theorem coordText_starts_element (c : Coord) : ∃ d t, coordText c = d :: t ∧ isSpace d = false ∧ d ≠ ']' := by
  by_cases hc : c.isFinite = true
  · obtain ⟨d, t, htext, hnumber⟩ := coordText_starts hc
    exact ⟨d, t, htext, isSpace_of_startsNumber hnumber, ne_of_startsNumber hnumber rfl⟩
  · exact ⟨'n', ['u', 'l', 'l'], coordText_eq_null (Bool.eq_false_iff.mpr hc), rfl, by decide⟩

variable (sp : Spacing)

/-- The text of a list from an element on. -/
def Spacing.elements (c : Coord) (cs : List Coord) : List Char :=
  coordText c ++ (sp.furtherCoords cs ++ (sp.listEnd ++ [']']))

theorem Spacing.elements_cons (c d : Coord) (ds : List Coord) :
    sp.elements c (d :: ds) = coordText c ++ ((',' :: sp.element) ++ sp.elements d ds) := by
  simp only [elements, furtherCoords, List.flatMap_cons, List.cons_append, List.append_assoc]

theorem Spacing.coords_cons (c : Coord) (cs : List Coord) :
    sp.coords (c :: cs) = ('[' :: sp.element) ++ sp.elements c cs := by
  simp only [elements, coords, List.cons_append]

theorem nextElement_elements (c : Coord) (cs : List Coord) (rest : List Char) :
    nextElement true (sp.element ++ (sp.elements c cs ++ rest)) = .ok (.item (sp.elements c cs ++ rest)) ∧
    nextElement false (',' :: (sp.element ++ (sp.elements c cs ++ rest))) = .ok (.item (sp.elements c cs ++ rest)) := by
  obtain ⟨d, t, htext, hspace, hne⟩ := coordText_starts_element c
  rw [Spacing.elements, htext, List.cons_append, List.cons_append]
  have hskip := fun r => skipSpace_gap (r := r) sp.space_element hspace
  exact ⟨nextElement_first (hskip _) hne, nextElement_further (skipSpace_cons rfl _) (hskip _) hne⟩

/-- Reading a list from an element on fails at its first null. -/
def FailsAtNull (text : List Char) : Prop :=
  ∃ before after, SplitAtNull text before after ∧
    ∀ {prior : List Coord} {s rest : List Char}, nextElement prior.isEmpty s = .ok (.item (text ++ rest)) →
      readCoordsAfter prior s = .error (nullFault (after ++ rest))

theorem failsAtNull_first (hc : c.isFinite = false) (cs : List Coord) : FailsAtNull (sp.elements c cs) := by
  have hnull := coordText_eq_null hc
  refine ⟨[], sp.furtherCoords cs ++ (sp.listEnd ++ [']']), ⟨?_, List.forall_mem_nil _⟩, ?_⟩
  · rw [Spacing.elements, hnull, List.nil_append]
  · intro prior s rest hnext
    rw [Spacing.elements, hnull, List.append_assoc] at hnext
    exact readCoordsAfter_item_error hnext (readCoord_null (List.forall_mem_nil _) _)

/-- A list with a null is refused at the first one, from whatever element on it is read: by induction on the elements,
those in front of the null being read as numbers. -/
theorem elements_of_null {cs : List Coord} (h : ∃ d ∈ c :: cs, d.isFinite = false) :
    FailsAtNull (sp.elements c cs) := by
  induction cs generalizing c with
  | nil =>
    obtain ⟨d, hd, hnull⟩ := h
    cases List.mem_singleton.mp hd
    exact failsAtNull_first sp hnull []
  | cons d ds ih =>
    by_cases hc : c.isFinite = true
    · have htail : ∃ e ∈ d :: ds, e.isFinite = false := by
        obtain ⟨e, he, hnull⟩ := h
        rcases List.mem_cons.mp he with rfl | he
        · rw [hc] at hnull
          cases hnull
        · exact ⟨e, he, hnull⟩
      obtain ⟨before, after, htext, hread⟩ := ih htail
      have hcomma : ∀ e ∈ ',' :: sp.element, e ≠ 'n' :=
        List.forall_mem_cons.mpr ⟨by decide, ne_n_of_isSpace sp.space_element⟩
      refine ⟨coordText c ++ ((',' :: sp.element) ++ before), after, ?_, ?_⟩
      · rw [Spacing.elements_cons]
        exact (htext.prepend hcomma).prepend (ne_n_of_coordText hc)
      · intro prior s rest hnext
        rw [Spacing.elements_cons, List.append_assoc] at hnext
        have hends : endsNumber ((',' :: sp.element) ++ sp.elements d ds ++ rest) = true := rfl
        rw [readCoordsAfter_item hnext (readCoord_coordText hc (List.forall_mem_nil _) hends)]
        refine hread ?_
        rw [List.append_assoc]
        exact (nextElement_elements sp d ds rest).2
    · exact failsAtNull_first sp (Bool.eq_false_iff.mpr hc) (d :: ds)

/-- A printed list with a null is refused at the first one. -/
theorem readCoords_of_null (h : ∃ c ∈ values, c.isFinite = false) : ∃ before after,
    SplitAtNull (sp.coords values) before after ∧
      ∀ {gap : List Char}, (∀ c ∈ gap, isSpace c = true) → ∀ rest,
        readCoords (gap ++ (sp.coords values ++ rest)) = .error (nullFault (after ++ rest)) := by
  cases values with
  | nil =>
    obtain ⟨c, hc, -⟩ := h
    cases hc
  | cons c cs =>
    obtain ⟨before, after, htext, hread⟩ := elements_of_null sp h
    have hbracket : ∀ d ∈ '[' :: sp.element, d ≠ 'n' :=
      List.forall_mem_cons.mpr ⟨by decide, ne_n_of_isSpace sp.space_element⟩
    refine ⟨('[' :: sp.element) ++ before, after, ?_, ?_⟩
    · rw [Spacing.coords_cons]
      exact htext.prepend hbracket
    · intro gap hgap rest
      rw [Spacing.coords_cons, List.append_assoc, List.cons_append, readCoords, skipSpace_append hgap,
        skipSpace_cons rfl]
      simp only [if_true]
      exact hread (nextElement_elements sp c cs rest).1

end Lists

/-! ## Documents with a null -/

section Documents

/-- A fault in front of the unread rest of a text shows behind what is read. -/
theorem inText_past (fault : Fault) (front unread : List Char) :
    (Fault.past fault 0 unread).inText (front ++ unread) = ⟨fault, .after (Text.toUtf8 front)⟩ := by
  have hbytes : Text.toUtf8 (front ++ unread) = Text.toUtf8 front ++ Text.toUtf8 unread := List.flatMap_append
  have hlength : (Text.toUtf8 front ++ Text.toUtf8 unread).length - (Text.byteLength unread - 0) =
      (Text.toUtf8 front).length := by
    rw [List.length_append, Text.byteLength]
    omega
  simp only [Located.inText, Fault.past, hbytes, hlength, List.take_left']

variable {p : Path} (sp : Spacing)

theorem ne_n_of_member {name value : List Char} (hname : 'n' ∉ name) (hvalue : ∀ c ∈ value, c ≠ 'n') :
    ∀ c ∈ sp.member name value, c ≠ 'n' := by
  simp only [Spacing.member, List.forall_mem_append, List.forall_mem_cons]
  exact ⟨ne_n_of_isSpace sp.space_key, by decide, fun c hc => ne_of_mem_of_not_mem hc hname, by decide, by decide,
    ne_n_of_isSpace sp.space_colon, hvalue⟩

theorem ne_n_of_coords {values : List Coord} (h : ∀ c ∈ values, c.isFinite = true) :
    ∀ d ∈ sp.coords values, d ≠ 'n' := by
  have hfurther : ∀ cs : List Coord, (∀ c ∈ cs, c.isFinite = true) → ∀ d ∈ sp.furtherCoords cs, d ≠ 'n' := by
    intro cs hcs d hd
    obtain ⟨c, hc, hd⟩ := List.mem_flatMap.mp hd
    exact List.forall_mem_cons.mpr ⟨by decide, List.forall_mem_append.mpr
      ⟨ne_n_of_isSpace sp.space_element, ne_n_of_coordText (hcs c hc)⟩⟩ d hd
  cases values with
  | nil => exact List.forall_mem_cons.mpr ⟨by decide, List.forall_mem_singleton.mpr (by decide)⟩
  | cons c cs =>
    obtain ⟨hc, hcs⟩ := List.forall_mem_cons.mp h
    simp only [Spacing.coords, List.forall_mem_append, List.forall_mem_cons]
    exact ⟨by decide, ne_n_of_isSpace sp.space_element, ne_n_of_coordText hc, hfurther cs hcs,
      ne_n_of_isSpace sp.space_listEnd, by decide, List.forall_mem_nil _⟩

/-- A member whose value cannot be read ends the reading of the members behind the first. -/
theorem readMembers_further_error {σ α : Type} {record : Record σ α} {draft : σ} {m : Member σ} {name value : List Char}
    {e : Located} (hname : ∀ c ∈ name, isPlain c = true)
    (hfind : (record.members.find? fun m => m.name.toList = name) = some m) (hfresh : m.isPresent draft = false)
    (hread : m.read draft (sp.colon ++ value) = .error e) :
    record.readMembers false draft (',' :: sp.member name value) = .error e := by
  simp only [Spacing.member]
  exact readMembers_item_error (nextKey_further (skipSpace_cons rfl _) (skipSpace_gap sp.space_key rfl))
    ((readMember_printed hname hfind hfresh).trans hread)

theorem Spacing.member_append (name value rest : List Char) :
    sp.member name value ++ rest = sp.member name (value ++ rest) := by
  simp only [member, List.append_assoc, List.cons_append]

theorem Spacing.member_eq (name value : List Char) : sp.member name value = sp.member name [] ++ value := by
  rw [member_append, List.nil_append]

/-- A text whose reading as a path fails at its first null is refused there. -/
theorem readPath_of_read {text before after : List Char} (htext : SplitAtNull text before after)
    (hread : pathRecord.read text = .error (nullFault after)) :
    readPath text = .error ⟨.wrongType .null .real, .after (Text.toUtf8 (before ++ nullText))⟩ := by
  have hplace : (nullFault after).inText text =
      ⟨.wrongType .null .real, .after (Text.toUtf8 (before ++ nullText))⟩ := by
    rw [htext.text_eq, ← List.append_assoc]
    exact inText_past _ _ _
  simp only [readPath, readDocument, readAlone, hread]
  exact congrArg Except.error hplace

/-- A printed path with a null is refused at its first one. -/
theorem readPath_of_null (h : ∃ axis, ∃ c ∈ p.coords axis, c.isFinite = false) : ∃ before after,
    SplitAtNull (sp.path p) before after ∧
      readPath (sp.path p) = .error ⟨.wrongType .null .real, .after (Text.toUtf8 (before ++ nullText))⟩ := by
  obtain ⟨id, xs, ys⟩ := p
  have hid : ∀ c ∈ sp.member ['i', 'd'] (Nat.toDigits 10 id.toNat), c ≠ 'n' :=
    ne_n_of_member sp (by decide) (ne_n_of_isDigit (Decimal.isDigits_toDigits id.toNat).2)
  by_cases hx : ∃ c ∈ xs, c.isFinite = false
  · obtain ⟨before, after, htext, hread⟩ := readCoords_of_null sp hx
    have hfront : ∀ c ∈ '\x7b' :: (sp.member ['i', 'd'] (Nat.toDigits 10 id.toNat) ++ (',' :: sp.member ['x'] [])),
        c ≠ 'n' := by
      simp only [List.forall_mem_cons, List.forall_mem_append]
      exact ⟨by decide, hid, by decide, ne_n_of_member sp (by decide) (List.forall_mem_nil _)⟩
    have hsplit := (htext.append (',' :: (sp.member ['y'] (sp.coords ys) ++ (sp.finish ++ ['\x7d'])))).prepend hfront
    have hpath : sp.path ⟨id, xs, ys⟩ =
        ('\x7b' :: (sp.member ['i', 'd'] (Nat.toDigits 10 id.toNat) ++ (',' :: sp.member ['x'] []))) ++
          (sp.coords xs ++ (',' :: (sp.member ['y'] (sp.coords ys) ++ (sp.finish ++ ['\x7d'])))) := by
      simp only [Spacing.path, List.cons_append, List.append_assoc]
      rw [sp.member_eq ['x'], List.append_assoc]
    rw [← hpath] at hsplit
    refine ⟨_, _, hsplit, readPath_of_read hsplit ?_⟩
    refine read_object_error (skipSpace_cons rfl _) ?_
    rw [readMembers_first sp isPlain_id rfl rfl (read_idMember sp _ id rfl), sp.member_append]
    refine readMembers_further_error sp isPlain_x rfl rfl ?_
    simp only [xMember, hread sp.space_colon]
  · have hxs : ∀ c ∈ xs, c.isFinite = true := by
      intro c hc
      by_contra hnull
      exact hx ⟨c, hc, Bool.eq_false_iff.mpr hnull⟩
    have hy : ∃ c ∈ ys, c.isFinite = false := by
      obtain ⟨axis, hnull⟩ := h
      cases axis with
      | x => exact absurd hnull hx
      | y => exact hnull
    obtain ⟨before, after, htext, hread⟩ := readCoords_of_null sp hy
    have hfront : ∀ c ∈ '\x7b' :: (sp.member ['i', 'd'] (Nat.toDigits 10 id.toNat) ++ (',' ::
        (sp.member ['x'] (sp.coords xs) ++ (',' :: sp.member ['y'] [])))), c ≠ 'n' := by
      simp only [List.forall_mem_cons, List.forall_mem_append]
      exact ⟨by decide, hid, by decide, ne_n_of_member sp (by decide) (ne_n_of_coords sp hxs), by decide,
        ne_n_of_member sp (by decide) (List.forall_mem_nil _)⟩
    have hsplit := (htext.append (sp.finish ++ ['\x7d'])).prepend hfront
    have hpath : sp.path ⟨id, xs, ys⟩ =
        ('\x7b' :: (sp.member ['i', 'd'] (Nat.toDigits 10 id.toNat) ++ (',' ::
          (sp.member ['x'] (sp.coords xs) ++ (',' :: sp.member ['y'] []))))) ++
          (sp.coords ys ++ (sp.finish ++ ['\x7d'])) := by
      simp only [Spacing.path, List.cons_append, List.append_assoc]
      rw [sp.member_eq ['y'], List.append_assoc]
    rw [← hpath] at hsplit
    refine ⟨_, _, hsplit, readPath_of_read hsplit ?_⟩
    refine read_object_error (skipSpace_cons rfl _) ?_
    rw [readMembers_first sp isPlain_id rfl rfl (read_idMember sp _ id rfl),
      readMembers_further sp isPlain_x rfl rfl (read_xMember sp _ hxs), sp.member_append]
    refine readMembers_further_error sp isPlain_y rfl rfl ?_
    simp only [yMember, hread sp.space_colon]

end Documents

/-! ## Both forms -/

theorem forall₂_reread {values : List Coord} (h : ∀ c ∈ values, c.isFinite = true) :
    List.Forall₂ (fun c d => readCoord (coordText c) = .ok (d, [])) values (values.map reread) := by
  rw [List.forall₂_map_right_iff, List.forall₂_same]
  intro c hc
  have hends : endsNumber [] = true := rfl
  have hread := readCoord_coordText (h c hc) (List.forall_mem_nil _) hends
  rwa [List.append_nil] at hread

/-- **The two printed forms are read alike.** A path on one line and on several is read as the same path or refused for
the same fault. If all its coordinates are finite, both forms are read as one path, which has the same id, and in the
place of each coordinate what is read from the text of that coordinate alone. If a coordinate is not finite, each form
is refused for a null in the place of a number, and right behind its first null. -/
theorem printed_forms_read_alike (p : Path) :
    (readPath (compactPath p)).mapError Refusal.fault = (readPath (prettyPath p)).mapError Refusal.fault ∧
    ((∀ axis, ∀ c ∈ p.coords axis, c.isFinite = true) →
      ∃ q : Path, (readPath (compactPath p) = .ok q ∧ readPath (prettyPath p) = .ok q) ∧ q.id = p.id ∧
        ∀ axis, List.Forall₂ (fun c d => readCoord (coordText c) = .ok (d, [])) (p.coords axis) (q.coords axis)) ∧
    ((∃ axis, ∃ c ∈ p.coords axis, c.isFinite = false) →
      ∀ text, text = compactPath p ∨ text = prettyPath p → ∃ before after,
        text = before ++ ("null".toList ++ after) ∧ 'n' ∉ before ∧
          readPath text =
            .error ⟨.wrongType .null .real, .after (Text.toUtf8 (before ++ "null".toList))⟩) := by
  have hfinite : (∀ axis, ∀ c ∈ p.coords axis, c.isFinite = true) →
      readPath (compactPath p) = .ok (rereadPath p) ∧ readPath (prettyPath p) = .ok (rereadPath p) := by
    intro hp
    have hcompact := readPath_compactPath hp (List.forall_mem_nil _)
    have hpretty := readPath_prettyPath hp (List.forall_mem_nil _)
    rw [List.append_nil] at hcompact hpretty
    exact ⟨hcompact, hpretty⟩
  have hnull : (∃ axis, ∃ c ∈ p.coords axis, c.isFinite = false) → ∀ text, text = compactPath p ∨ text = prettyPath p →
      ∃ before after, SplitAtNull text before after ∧
        readPath text = .error ⟨.wrongType .null .real, .after (Text.toUtf8 (before ++ nullText))⟩ := by
    rintro h text (rfl | rfl)
    · rw [Spacing.compactPath_eq]
      exact readPath_of_null .none h
    · rw [Spacing.prettyPath_eq]
      exact readPath_of_null .lines h
  refine ⟨?_, ?_, ?_⟩
  · by_cases h : ∀ axis, ∀ c ∈ p.coords axis, c.isFinite = true
    · rw [(hfinite h).1, (hfinite h).2]
    · have hsome : ∃ axis, ∃ c ∈ p.coords axis, c.isFinite = false := by
        simpa only [not_forall, exists_prop, Bool.not_eq_true] using h
      obtain ⟨_, _, -, hcompact⟩ := hnull hsome _ (.inl rfl)
      obtain ⟨_, _, -, hpretty⟩ := hnull hsome _ (.inr rfl)
      rw [hcompact, hpretty]
      rfl
  · intro h
    refine ⟨rereadPath p, hfinite h, rfl, ?_⟩
    intro axis
    cases axis with
    | x => exact forall₂_reread (h .x)
    | y => exact forall₂_reread (h .y)
  · intro h text htext
    obtain ⟨before, after, hsplit, hread⟩ := hnull h text htext
    exact ⟨before, after, hsplit.text_eq, fun hmem => hsplit.first 'n' hmem rfl, hread⟩

example : (Fault.wrongType .null .real).category = .data ∧
    (Fault.wrongType .null .real).message = "invalid type: null, expected f64" := by decide

/-- A negative zero and the least positive number are read alike in both forms, and so are a NaN and an infinity behind
a number in the second sequence. -/
theorem printed_forms_read_alike_special :
    let p : Path := ⟨7, [⟨0x8000000000000000⟩, ⟨1⟩], []⟩
    let q : Path := ⟨7, [⟨1⟩], [⟨0x4000000000000000⟩, ⟨0x7ff8000000000000⟩, ⟨0xfff0000000000000⟩]⟩
    (∃ r : Path, readPath (compactPath p) = .ok r ∧ readPath (prettyPath p) = .ok r) ∧
      ∀ text, text = compactPath q ∨ text = prettyPath q →
        ∃ place, readPath text = .error ⟨.wrongType .null .real, place⟩ := by
  intro p q
  have hp : ∀ axis, ∀ c ∈ p.coords axis, c.isFinite = true := by
    intro axis
    cases axis <;> exact List.all_eq_true.mp rfl
  have hq : ∃ axis, ∃ c ∈ q.coords axis, c.isFinite = false := ⟨.y, ⟨0x7ff8000000000000⟩, by decide, rfl⟩
  obtain ⟨-, hfinite, -⟩ := printed_forms_read_alike p
  obtain ⟨-, -, hnull⟩ := printed_forms_read_alike q
  obtain ⟨r, hr, -⟩ := hfinite hp
  refine ⟨⟨r, hr⟩, ?_⟩
  intro text htext
  obtain ⟨before, after, -, -, hread⟩ := hnull hq text htext
  exact ⟨_, hread⟩

end Polypath.Json
