import Polypath.Proofs.Command.Reading
import Polypath.Proofs.Command.Writing
import Polypath.Proofs.Text.Base64Url

/-!
# Files copied as text

`to-base64` does not print the bytes of a file but those of the path that it reads there, and `from-base64` writes those
of the path that it reads from the text. A buffer has one writing only, so the bytes are the same all along
(`base64_copies_file`). Every such text starts alike, since every buffer starts with the version tag.
-/

namespace Polypath.Command

open Wire Outcome

variable {f : Format} {tree after : Files.Tree} {file text : String} {content : List UInt8} {p : Path}

/-- `to-base64` prints the content of a file that is read as a path, and fails on any other. -/
theorem toBase64_prints_iff : ((toBase64 file).run f tree).outcome = .ok (text, after) ↔
    ∃ content p, tree.read file = .ok content ∧ f.decode content = .ok p ∧
      Text.ofAscii (Text.Base64Url.encode content) = text ∧ tree = after := by
  constructor
  · intro hprint
    obtain ⟨p, hpath⟩ : ∃ p, (Transfer.readFile f tree file).outcome = .ok p := by
      simp only [outcome_run_toBase64, bind_eq_ok_iff, mapError_eq_ok_iff] at hprint
      obtain ⟨p, hpath, -⟩ := hprint
      exact ⟨p, hpath⟩
    obtain ⟨content, hread, hp⟩ := Transfer.outcome_readFile_iff_decode.mp hpath
    rw [toBase64_of_read hread hp] at hprint
    cases hprint
    exact ⟨content, p, hread, hp, rfl, rfl⟩
  · rintro ⟨content, p, hread, hp, rfl, rfl⟩
    exact toBase64_of_read hread hp

/-- `from-base64` makes a file of the text of a buffer, whatever blanks stand around it. -/
theorem fromBase64_of_text (hp : f.decode content = .ok p) {lead trail : List Char}
    (hlead : ∀ c ∈ lead, Text.isBlank c = true) (htrail : ∀ c ∈ trail, Text.isBlank c = true) {out : String}
    (hout : tree.Writable out) :
    ∃ told copied, ((fromBase64 (String.ofList
        (lead ++ (Text.ofAscii (Text.Base64Url.encode content)).toList ++ trail)) out).run f tree).outcome =
      .ok (told, copied) ∧ tree.Written out content copied := by
  obtain ⟨copied, hwrite⟩ := hout.write content
  have hbrings : (fromBase64 (String.ofList
      (lead ++ (Text.ofAscii (Text.Base64Url.encode content)).toList ++ trail)) out).Brings f tree p := by
    refine ⟨content, ?_, hp⟩
    rw [String.toList_ofList]
    exact Text.Base64Url.decode_trim_encode content lead trail hlead htrail
  exact ⟨_, copied, (run_writes_iff rfl).mpr ⟨p, hbrings, content, Format.decode_iff_encode.mp hp, hwrite, rfl⟩,
    Files.Tree.written_of_write hwrite⟩

/-- The first four symbols are those of the tag's first three bytes. The fifth has the top bits of its last byte. -/
theorem encode_of_tag (a b : UInt8) (rest : List UInt8) :
    ['A', 'Q', 'A', 'A', 'A'] <+:
      (Text.ofAscii (Text.Base64Url.encode (1 :: 0 :: 0 :: 0 :: a :: b :: rest))).toList := by
  have ha : a.toNat < 256 := a.toNat_lt
  have hb : b.toNat < 256 := b.toNat_lt
  have hfifth : (UInt8.toNat 0 * 65536 + a.toNat * 256 + b.toNat) / 262144 = 0 := by
    change (0 * 65536 + a.toNat * 256 + b.toNat) / 262144 = 0
    omega
  rw [Text.ofAscii, String.toList_ofList, Text.Base64Url.encode, Text.Base64Url.encode]
  simp only [List.map_cons, hfifth]
  exact List.prefix_append ['A', 'Q', 'A', 'A', 'A'] _

theorem exists_pathBytes_eq (p : Path) : ∃ a b rest, pathBytes .one p = 1 :: 0 :: 0 :: 0 :: a :: b :: rest :=
  ⟨_, _, _, rfl⟩

/-- **A file is copied as text.** Let `to-base64` print a text for a file. Then `from-base64`, given that text with any
blanks around it, succeeds under the same limit for every name that can be written, among whatever files, and the file
it writes has the very bytes of the first. The text starts with `AQAAA` and has no characters but letters, digits, `-`,
`_` and `=`. -/
theorem base64_copies_file (f : Format) (tree after : Files.Tree) (file text : String)
    (hprint : ((toBase64 file).run f tree).outcome = .ok (text, after)) :
    (∃ content, tree.read file = .ok content ∧
      ∀ lead trail : List Char, (∀ c ∈ lead, Text.isBlank c = true) → (∀ c ∈ trail, Text.isBlank c = true) →
        ∀ (others : Files.Tree) (out : String), others.Writable out →
          ∃ told copied, ((fromBase64 (String.ofList (lead ++ text.toList ++ trail)) out).run f others).outcome =
            .ok (told, copied) ∧ others.Written out content copied) ∧
    "AQAAA".toList <+: text.toList ∧ ∀ c ∈ text.toList, Text.Base64Url.IsSymbol c := by
  obtain ⟨content, p, hread, hp, rfl, rfl⟩ := toBase64_prints_iff.mp hprint
  refine ⟨⟨content, hread, fun lead trail hlead htrail others out hout => fromBase64_of_text hp hlead htrail hout⟩, ?_,
    fun c hc => Text.Base64Url.isSymbol_of_mem_encode hc⟩
  obtain ⟨a, b, rest, hbytes⟩ := exists_pathBytes_eq p
  rw [(Format.decode_eq_ok_iff.mp hp).2, Subsingleton.elim f.revision .one, hbytes]
  exact encode_of_tag a b rest

/-- A file with coordinates is printed as text, and from that text between blanks a second file is written, which has
the same bytes. -/
theorem base64_copies_file_to_another :
    ((toBase64 "p.tsf").run {} smallFile).outcome = .ok (smallText, smallFile) ∧
    ∃ told copied, ((fromBase64 (String.ofList (['\t', ' '] ++ smallText.toList ++ ['\n'])) "q.tsf").run {}
        smallFile).outcome = .ok (told, copied) ∧
      copied.read "q.tsf" = .ok smallBuffer ∧ copied.read "p.tsf" = .ok smallBuffer := by
  have hprint : ((toBase64 "p.tsf").run {} smallFile).outcome = .ok (smallText, smallFile) :=
    (toBase64_of_read read_smallFile decode_smallBuffer).trans (by rfl)
  obtain ⟨⟨content, hread, hcopies⟩, -⟩ := base64_copies_file {} smallFile smallFile "p.tsf" smallText hprint
  cases read_smallFile.symm.trans hread
  have hlead : ∀ c ∈ ['\t', ' '], Text.isBlank c = true := List.all_eq_true.mp rfl
  have htrail : ∀ c ∈ ['\n'], Text.isBlank c = true := List.all_eq_true.mp rfl
  obtain ⟨told, copied, hrun, hwritten⟩ := hcopies _ _ hlead htrail smallFile "q.tsf" ⟨_, rfl⟩
  have hother : smallFile.target "p.tsf" ≠ smallFile.target "q.tsf" := by decide +kernel
  exact ⟨hprint, told, copied, hrun, hwritten.read, hwritten.others _ _ read_smallFile hother⟩

end Polypath.Command
