import Polypath.Proofs.Text.Canonical
import Polypath.Proofs.Transfer.Contents

/-!
# Paths as text

A path has one text, and the blanks around it do not count: a text is read as a path exactly if, without those blanks,
it is what the path is written as (`ofText_iff_toText`). One direction says that what is written is read back
(`text_round_trip`), the other that nothing else is read as the same path (`text_canonical`). A text that is misspelled
is refused for that, whatever buffer it might stand for and whatever the limit.
-/

namespace Polypath.Transfer

open Journal Wire Outcome

variable {f : Format} {p : Path} {text : String}

theorem outcome_toText_eq_ok_iff : (toText f p).outcome = .ok text ↔
    ∃ bytes, Holds f.limit bytes p ∧ Text.ofAscii (Text.Base64Url.encode bytes) = text := by
  simp only [outcome_toText, bind_eq_ok_iff, mapError_eq_ok_iff, encode_iff_holds, Except.ok.injEq]

/-- A text is read as a path exactly if it is, without the blanks around it, what the path is written as. -/
theorem ofText_iff_toText : (ofText f text).outcome = .ok p ↔
    (toText f p).outcome = .ok (String.ofList (Text.trim text.toList)) := by
  simp only [outcome_ofText_eq_ok_iff, outcome_toText_eq_ok_iff, Text.Base64Url.decode_toUtf8_eq_ok_iff]
  constructor
  · rintro ⟨bytes, htext, hholds⟩
    exact ⟨bytes, hholds, by rw [htext, String.ofList_toList]⟩
  · rintro ⟨bytes, hholds, htext⟩
    exact ⟨bytes, by rw [htext, String.toList_ofList], hholds⟩

/-- What is written has no blanks. -/
theorem isBlank_of_toText (htext : (toText f p).outcome = .ok text) : ∀ c ∈ text.toList, Text.isBlank c = false := by
  obtain ⟨bytes, -, rfl⟩ := outcome_toText_eq_ok_iff.mp htext
  intro c hc
  exact (Text.Base64Url.isSymbol_of_mem_encode hc).isBlank_eq_false

/-- A text is refused as a text exactly if its symbols are, whatever the limit. -/
theorem outcome_ofText_eq_text_iff : (∃ fault, (ofText f text).outcome = .error (.text fault)) ↔
    ∃ fault, Text.Base64Url.decode (Text.toUtf8 (Text.trim text.toList)) = .error fault := by
  rw [outcome_ofText]
  cases Text.Base64Url.decode (Text.toUtf8 (Text.trim text.toList)) with
  | error fault => simp
  | ok bytes =>
    -- the fault of a buffer is none of the text
    rw [mapError_ok, ok_bind]
    cases f.decode bytes with
    | error fault => simp
    | ok p => simp

/-- **A path is read back from its text.** Exactly the paths that have a buffer under a limit have a text, and under the
same limit the path is read back bit for bit from its text with any blanks before and behind it. -/
theorem text_round_trip (f : Format) (p : Path) :
    ((∃ bytes, f.encode p = .ok bytes) ↔ ∃ text, (toText f p).outcome = .ok text) ∧
      ∀ text, (toText f p).outcome = .ok text → ∀ lead trail : String, (∀ c ∈ lead.toList, Text.isBlank c = true) →
        (∀ c ∈ trail.toList, Text.isBlank c = true) → (ofText f (lead ++ text ++ trail)).outcome = .ok p := by
  constructor
  · simp only [encode_iff_holds, outcome_toText_eq_ok_iff]
    constructor
    · rintro ⟨bytes, hholds⟩
      exact ⟨_, bytes, hholds, rfl⟩
    · rintro ⟨_, bytes, hholds, -⟩
      exact ⟨bytes, hholds⟩
  · intro text htext lead trail hlead htrail
    have htrim : Text.trim (lead ++ text ++ trail).toList = text.toList := by
      rw [String.toList_append, String.toList_append, Text.trim_append hlead (isBlank_of_toText htext) htrail]
    rw [ofText_iff_toText, htrim, String.ofList_toList, htext]

/-- A path with a NaN is read back from between an ideographic space and the end of a line. -/
theorem text_round_trip_nan :
    let p : Path := ⟨7, [⟨0x7ff800000000beef⟩], []⟩
    ∃ text, (toText { limit := 1 } p).outcome = .ok text ∧
      (ofText { limit := 1 } ("\u3000 " ++ text ++ "\r\n")).outcome = .ok p := by
  intro p
  obtain ⟨hwritten, hread⟩ := text_round_trip { limit := 1 } p
  obtain ⟨text, htext⟩ := hwritten.mp ⟨_, rfl⟩
  have hlead : ∀ c ∈ "\u3000 ".toList, Text.isBlank c = true := List.all_eq_true.mp rfl
  have htrail : ∀ c ∈ "\r\n".toList, Text.isBlank c = true := List.all_eq_true.mp rfl
  exact ⟨text, htext, hread text htext _ _ hlead htrail⟩

/-- **A path has one text.** A text that is read under a limit is, without the blanks around it, exactly what its path is
written as under that limit. So two texts that differ in more than those blanks are not read as the same path, whatever
the limits. A text is refused as a text, and no buffer is looked at, exactly if it is misspelled: it has a character
outside the alphabet, or a blank between the symbols, or a symbol behind padding, or padding that is missing or too
much, or unused bits that are set. -/
theorem text_canonical (text : String) :
    (∀ f p, (ofText f text).outcome = .ok p →
      (toText f p).outcome = .ok (String.ofList (Text.trim text.toList))) ∧
    (∀ f g other p q, (ofText f text).outcome = .ok p → (ofText g other).outcome = .ok q →
      Text.trim text.toList ≠ Text.trim other.toList → p ≠ q) ∧
    ∀ f, (∃ fault, (ofText f text).outcome = .error (.text fault)) ↔
      Text.Base64Url.Misspelled (Text.trim text.toList) := by
  refine ⟨fun f p => ofText_iff_toText.mp, ?_, fun f => ?_⟩
  · rintro f g other p q hp hq hne rfl
    obtain ⟨_, ⟨-, rfl⟩, htext⟩ := outcome_toText_eq_ok_iff.mp (ofText_iff_toText.mp hp)
    obtain ⟨_, ⟨-, rfl⟩, hother⟩ := outcome_toText_eq_ok_iff.mp (ofText_iff_toText.mp hq)
    exact hne (String.ofList_injective (htext.symm.trans hother))
  · rw [outcome_ofText_eq_text_iff, Text.Base64Url.misspelled_iff]

/-- The text of a path with one coordinate ends with padding, and so with two bits that no byte uses. With one of these
bits set it is refused as a text. -/
theorem text_canonical_last_symbol :
    let p : Path := ⟨7, [⟨0x3ff0000000000000⟩], []⟩
    let front := "AQAAAAcAAAABAAAAAAAAAAAAAAAAAPA_AAAAAAAAAA"
    (ofText { limit := 1 } (" " ++ front ++ "A=\n")).outcome = .ok p ∧
      (toText { limit := 1 } p).outcome = .ok (front ++ "A=") ∧
      ∃ fault, (ofText { limit := 1 } (" " ++ front ++ "B=\n")).outcome = .error (.text fault) := by
  intro p front
  have hread : (ofText { limit := 1 } (" " ++ front ++ "A=\n")).outcome = .ok p := by decide +kernel
  have hbits : Text.Base64Url.Misspelled (Text.trim (" " ++ front ++ "B=\n").toList) :=
    .unusedBits (c := 'B') (v := 1) (by decide +kernel) (by decide +kernel) (by decide +kernel)
  have htrim : String.ofList (Text.trim (" " ++ front ++ "A=\n").toList) = front ++ "A=" := by decide +kernel
  have hwritten := (text_canonical _).1 _ _ hread
  rw [htrim] at hwritten
  exact ⟨hread, hwritten, ((text_canonical _).2.2 _).mpr hbits⟩

end Polypath.Transfer
