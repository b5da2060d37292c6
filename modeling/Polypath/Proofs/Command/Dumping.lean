import Polypath.Proofs.Command.Reading
import Polypath.Proofs.Command.Writing
import Polypath.Proofs.Json.Documents

/-!
# Dumped files packed again

`dump` prints a path as a document, each coordinate in the shortest decimal that is nearest to it, and `pack` makes a
file of a document. A document is read by a product or a quotient of rounded numbers, which is not always the number
nearest to the decimal. So a file that is dumped and packed again is a file of the same id, lengths and signs, in which
every coordinate is at most two patterns away from the first and those of short decimals are unchanged
(`dumped_path_packs_again`). Some coordinates do move (`dumped_path_drifts`).
-/

namespace Polypath.Command

open Wire Outcome

variable {f : Format} {tree : Files.Tree} {p : Path}

/-! ## Documents -/

theorem readPath_dumpText (hp : ∀ axis, ∀ c ∈ p.coords axis, c.isFinite = true) (pretty : Bool) {trail : List Char}
    (htrail : ∀ c ∈ trail, Json.isSpace c = true) :
    Json.readPath ((dumpText p pretty).toList ++ trail) = .ok (Json.rereadPath p) := by
  rw [dumpText, String.toList_ofList]
  cases pretty with
  | true => exact Json.readPath_prettyPath hp htrail
  | false => exact Json.readPath_compactPath hp htrail

/-- A document that is read as a path within the limit is packed. -/
theorem pack_of_document {document out : String} {text : List Char}
    (hread : tree.read document = .ok (Text.toUtf8 text)) (hp : Json.readPath text = .ok p) (hwithin : p.Within f.limit)
    (hout : tree.Writable out) :
    ∃ told packed bytes, ((pack document out).run f tree).outcome = .ok (told, packed) ∧
      tree.Written out bytes packed ∧ f.decode bytes = .ok p := by
  have hbrings : (pack document out).Brings f tree p := by
    refine ⟨_, _, hread, Text.ofUtf8?_toUtf8 text, ?_⟩
    rw [String.toList_ofList]
    exact hp
  obtain ⟨told, packed, hrun⟩ := (run_succeeds_iff rfl).mpr ⟨p, hbrings, hwithin, hout⟩
  obtain ⟨q, bytes, hq, hbytes, hwritten, -⟩ := files_of_write rfl hrun
  cases hbrings.unique hq
  exact ⟨told, packed, bytes, hrun, hwritten, Format.decode_iff_encode.mpr hbytes⟩

/-! ## Paths read again -/

theorem coords_rereadPath (p : Path) (axis : Axis) :
    (Json.rereadPath p).coords axis = (p.coords axis).map Json.reread := by
  cases axis <;> rfl

theorem within_rereadPath {limit : UInt64} (hp : p.Within limit) : (Json.rereadPath p).Within limit := by
  unfold Path.Within Json.rereadPath at *
  simpa only [List.length_map] using hp

theorem rereadPath_eq_self (hp : ∀ axis, ∀ c ∈ p.coords axis, Json.reread c = c) : Json.rereadPath p = p := by
  have hcoords : ∀ axis, (p.coords axis).map Json.reread = p.coords axis := fun axis =>
    (List.map_congr_left (g := id) (hp axis)).trans (List.map_id _)
  obtain ⟨id, xs, ys⟩ := p
  have hx : xs.map Json.reread = xs := hcoords .x
  have hy : ys.map Json.reread = ys := hcoords .y
  rw [Json.rereadPath, hx, hy]

/-- Every coordinate of a path read again stands for the one in its place. -/
theorem restores_rereadPath (hp : ∀ axis, ∀ c ∈ p.coords axis, c.isFinite = true) (axis : Axis) :
    List.Forall₂ Json.Restores (p.coords axis) ((Json.rereadPath p).coords axis) := by
  rw [coords_rereadPath, List.forall₂_map_right_iff, List.forall₂_same]
  exact fun c hc => Json.restores_reread (hp axis c hc)

/-- The files of two paths have the same bytes exactly when the paths are the same. -/
theorem eq_iff_of_decode {g : Format} {bytes content : List UInt8} {q : Path} (hq : g.decode bytes = .ok q)
    (hp : f.decode content = .ok p) (hwithin : p.Within g.limit) : bytes = content ↔ q = p := by
  have hcontent : content = pathBytes g.revision p := by
    rw [(Format.decode_eq_ok_iff.mp hp).2, Subsingleton.elim f.revision g.revision]
  constructor
  · intro heq
    have hp' : g.decode content = .ok p := Format.decode_eq_ok_iff.mpr ⟨hwithin, hcontent⟩
    rw [heq, hp'] at hq
    cases hq
    rfl
  · rintro rfl
    rw [(Format.decode_eq_ok_iff.mp hq).2, hcontent]

/-! ## Packing a dumped file -/

/-- **A dumped file can be packed again.** For every path of finite coordinates there is one that all its documents, on
one line or on several and with any space behind, are read as. It has the same id and lengths, and each coordinate has
the sign of the one in its place, is at most two patterns away from it, and is the same if that one has a short decimal.
So if all of them have, the path is the same. Under any limit that admits the path, `pack` makes a file of the document
that `dump` prints for any file of it, and the two files have the same bytes exactly when the paths are the same. -/
theorem dumped_path_packs_again (p : Path) (hfinite : ∀ axis, ∀ c ∈ p.coords axis, c.isFinite = true) :
    ∃ q : Path, q.id = p.id ∧ (∀ axis, List.Forall₂ Json.Restores (p.coords axis) (q.coords axis)) ∧
      ((∀ axis, ∀ c ∈ p.coords axis, Json.HasShortDecimal c) → q = p) ∧
      ∀ (pretty : Bool) (trail : List Char), (∀ c ∈ trail, Json.isSpace c = true) →
        Json.readPath ((dumpText p pretty).toList ++ trail) = .ok q ∧
        ∀ (f g : Format) (tree others : Files.Tree) (file document out : String) (content : List UInt8),
          tree.read file = .ok content → f.decode content = .ok p → p.Within g.limit →
          others.read document = .ok (Text.toUtf8 ((dumpText p pretty).toList ++ trail)) → others.Writable out →
            ((dump file pretty).run f tree).outcome = .ok (dumpText p pretty, tree) ∧
            ∃ told packed bytes, ((pack document out).run g others).outcome = .ok (told, packed) ∧
              others.Written out bytes packed ∧ g.decode bytes = .ok q ∧ (bytes = content ↔ q = p) := by
  refine ⟨Json.rereadPath p, rfl, restores_rereadPath hfinite, ?_, ?_⟩
  · intro hshort
    exact rereadPath_eq_self fun axis c hc => (Json.restores_reread (hfinite axis c hc)).short (hshort axis c hc)
  · intro pretty trail htrail
    have hdocument := readPath_dumpText hfinite pretty htrail
    refine ⟨hdocument, ?_⟩
    intro f g tree others file document out content hread hp hwithin hdump hout
    obtain ⟨told, packed, bytes, hrun, hwritten, hq⟩ :=
      pack_of_document hdump hdocument (within_rereadPath hwithin) hout
    exact ⟨dump_of_read hread hp pretty, told, packed, bytes, hrun, hwritten, hq, eq_iff_of_decode hq hp hwithin⟩

/-- Its `x` are read two patterns too low and one too high, its `y` as they are: a zero with a sign and the least
positive number. -/
def driftingPath : Path := ⟨1, [⟨0x102cc924586ac6e7⟩, ⟨0x3b282db34012b251⟩], [⟨0x8000000000000000⟩, ⟨1⟩]⟩

/-- A tree with a file of that path and the document on several lines that is printed for it. -/
def driftingFiles : Files.Tree :=
  .ofFiles [("p.tsf", pathBytes .one driftingPath),
    ("p.json", Text.toUtf8 ((dumpText driftingPath true).toList ++ ['\n']))]

/-- The path is packed under a limit that it just meets, and over the document. -/
theorem dumped_path_packs_over_document :
    ∃ told packed bytes q, ((pack "p.json" "p.json").run { limit := 2 } driftingFiles).outcome = .ok (told, packed) ∧
      packed.read "p.json" = .ok bytes ∧ Format.decode { limit := 2 } bytes = .ok q ∧
      ∀ axis, List.Forall₂ Json.Restores (driftingPath.coords axis) (q.coords axis) := by
  have hfinite : ∀ axis, ∀ c ∈ driftingPath.coords axis, c.isFinite = true := by
    intro axis
    cases axis <;> exact List.all_eq_true.mp rfl
  obtain ⟨q, -, hrestores, -, hpack⟩ := dumped_path_packs_again driftingPath hfinite
  have hread : driftingFiles.read "p.tsf" = .ok (pathBytes .one driftingPath) := by rfl
  have hp : Format.decode {} (pathBytes .one driftingPath) = .ok driftingPath :=
    Format.decode_eq_ok_iff.mpr ⟨by decide, rfl⟩
  obtain ⟨-, hfile⟩ := hpack true ['\n'] (List.all_eq_true.mp rfl)
  obtain ⟨-, told, packed, bytes, hrun, hwritten, hq, -⟩ := hfile {} { limit := 2 } driftingFiles driftingFiles "p.tsf"
    "p.json" "p.json" _ hread hp (by decide) rfl ⟨_, rfl⟩
  exact ⟨told, packed, bytes, q, hrun, hwritten.read, hq, hrestores⟩

/-- **Some coordinates drift.** All the coordinates are finite, and what either document is read as is not the path. -/
theorem dumped_path_drifts :
    (∀ axis, ∀ c ∈ driftingPath.coords axis, c.isFinite = true) ∧
    ∀ pretty, Json.readPath (dumpText driftingPath pretty).toList =
      .ok ⟨1, [⟨0x102cc924586ac6e5⟩, ⟨0x3b282db34012b252⟩], [⟨0x8000000000000000⟩, ⟨1⟩]⟩ := by
  constructor
  · intro axis
    cases axis <;> exact List.all_eq_true.mp rfl
  · intro pretty
    rw [dumpText, String.toList_ofList]
    cases pretty <;> decide +kernel

end Polypath.Command
