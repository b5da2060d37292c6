import Polypath.Proofs.Command.Outcomes
import Polypath.Proofs.Files.Tree

/-!
# Commands and files

`Command.run` says nothing about the files after a command that fails. They are seen when the command is carried out on
a disk, where every write stays: on the disk of a tree, `perform` answers as `run` does, and after a fault the tree is
as it was (`run_perform`). So a command changes files only if it succeeds, and then only the one it is to write
(`files_survive_commands`).
-/

namespace Polypath.Command

open Journal Wire Outcome

/-! ## Commands on the disk of a tree -/

/-- A command looks at no file but its own. -/
theorem decide_congr {read read' : Reader} {c : Command} (hread : ∀ file ∈ c.source?, read file = read' file)
    (f : Format) : c.decide f read = c.decide f read' := by
  cases c with
  | inspect file => simp only [decide, hread file rfl]
  | dump file pretty => simp only [decide, readBuffer, hread file rfl]
  | toBase64 file => simp only [decide, readBuffer, hread file rfl]
  | pack document out => simp only [decide, readDocumentFile, hread document rfl]
  | fromBase64 text out => rfl

/-- What is found on the disk of a tree after an outcome. A fault finds the tree as it was. -/
def found {ε α : Type} (tree : Files.Tree) : Except ε (α × Files.Tree) → Except ε α × Files.Tree
  | .ok (a, after) => (.ok a, after)
  | .error fault => (.error fault, tree)

theorem run_ofTree_write (tree : Files.Tree) (name : String) (content : List UInt8) :
    (Files.Disk.ofTree.write name content).run tree =
      found tree ((tree.write name content).map fun after => ((), after)) := by
  cases hwrite : tree.write name content with
  | ok after =>
    simp only [Files.Disk.ofTree, StateT.run_bind, StateT.run_get, pure_bind, hwrite]
    rfl
  | error fault =>
    simp only [Files.Disk.ofTree, StateT.run_bind, StateT.run_get, pure_bind, hwrite]
    rfl

theorem run_carryOut (tree : Files.Tree) (decided : Except Fault Decision) :
    (carryOut .ofTree decided).run tree = found tree (decided >>= Decision.outcome tree) := by
  cases decided with
  | error fault => rfl
  | ok decision =>
    cases decision with
    | print text => rfl
    | write file content text =>
      rw [carryOut, StateT.run_bind, run_ofTree_write, ok_bind, Decision.outcome]
      cases tree.write file content with
      | ok after => rfl
      | error fault => rfl

/-- On the disk of a tree a command answers as it does on the tree, and a fault finds the tree as it was. -/
theorem run_perform (f : Format) (tree : Files.Tree) (c : Command) :
    (c.perform .ofTree f).run tree = found tree (c.run f tree).outcome := by
  -- the file of the command is all that it looks at, and looking at it changes nothing
  obtain ⟨content, hcontent, hlook⟩ : ∃ content, (∀ file ∈ c.source?, content = tree.read file) ∧
      (c.perform .ofTree f).run tree = (carryOut .ofTree (c.decide f fun _ => content).outcome).run tree := by
    unfold perform
    cases c.source? with
    | none => exact ⟨.ok [], nofun, rfl⟩
    | some file =>
      refine ⟨tree.read file, ?_, rfl⟩
      rintro _ ⟨⟩
      rfl
  rw [hlook, decide_congr hcontent, run_carryOut, outcome_run]

/-! ## Files after a command -/

variable {f : Format} {tree after : Files.Tree} {c : Command} {out text : String}

theorem files_of_print (hout : c.output? = none) (hrun : (c.run f tree).outcome = .ok (text, after)) :
    after = tree := by
  cases c with
  | inspect file =>
    simp only [outcome_run_inspect, bind_eq_ok_iff] at hrun
    obtain ⟨_, _, _, _, _, _, hprint⟩ := hrun
    cases hprint
    rfl
  | dump file pretty =>
    simp only [outcome_run_dump, bind_eq_ok_iff] at hrun
    obtain ⟨_, _, hprint⟩ := hrun
    cases hprint
    rfl
  | toBase64 file =>
    simp only [outcome_run_toBase64, bind_eq_ok_iff] at hrun
    obtain ⟨_, _, _, _, hprint⟩ := hrun
    cases hprint
    rfl
  | pack | fromBase64 => cases hout

/-- The file that a command has written is read as the path that it was brought. -/
theorem files_of_write (hout : c.output? = some out) (hrun : (c.run f tree).outcome = .ok (text, after)) :
    ∃ p bytes, c.Brings f tree p ∧ f.encode p = .ok bytes ∧ tree.Written out bytes after ∧
      (Transfer.readFile f after out).outcome = .ok p := by
  obtain ⟨p, hp, bytes, hbytes, hwrite, -⟩ := (run_writes_iff hout).mp hrun
  have hdecode : f.decode bytes = .ok p := Format.decode_iff_encode.mpr hbytes
  have hwritten := Files.Tree.written_of_write hwrite
  exact ⟨p, bytes, hp, hbytes, hwritten, Transfer.outcome_readFile_iff_decode.mpr ⟨bytes, hwritten.read, hdecode⟩⟩

theorem run_succeeds_iff (hout : c.output? = some out) : (∃ text after, (c.run f tree).outcome = .ok (text, after)) ↔
    ∃ p, c.Brings f tree p ∧ p.Within f.limit ∧ tree.Writable out := by
  constructor
  · rintro ⟨text, after, hrun⟩
    obtain ⟨p, hp, bytes, hbytes, hwrite, -⟩ := (run_writes_iff hout).mp hrun
    obtain ⟨place, hplace, -⟩ := Files.Tree.write_eq_ok_iff.mp hwrite
    exact ⟨p, hp, (Format.encode_eq_ok_iff.mp hbytes).1, place, hplace⟩
  · rintro ⟨p, hp, hwithin, hwritable⟩
    obtain ⟨after, hwrite⟩ := hwritable.write (pathBytes f.revision p)
    exact ⟨_, after, (run_writes_iff hout).mpr ⟨p, hp, _, Format.encode_eq_ok_iff.mpr ⟨hwithin, rfl⟩, hwrite, rfl⟩⟩

/-- **Commands never damage files.** Whatever the files, the limit and the command, carrying it out on the disk leaves
every file as it was if the command only prints, and also if it fails, for whatever reason. A command that writes
succeeds exactly when it is brought a path, the path respects the limit, and its file can be written. Then that file
alone is changed. It holds the buffer of the path and is read as the path under the same limit. -/
theorem files_survive_commands (f : Format) (tree : Files.Tree) (c : Command) (result : Except Fault String)
    (after : Files.Tree) (hrun : (c.perform .ofTree f).run tree = (result, after)) :
    (c.output? = none → after = tree) ∧
    (∀ fault, result = .error fault → after = tree) ∧
    ∀ out, c.output? = some out →
      ((∃ text, result = .ok text) ↔ ∃ p, c.Brings f tree p ∧ p.Within f.limit ∧ tree.Writable out) ∧
      ∀ text, result = .ok text → ∃ p bytes, c.Brings f tree p ∧ f.encode p = .ok bytes ∧
        tree.Written out bytes after ∧ (Transfer.readFile f after out).outcome = .ok p := by
  rw [run_perform] at hrun
  cases houtcome : (c.run f tree).outcome with
  | error fault =>
    rw [houtcome] at hrun
    cases hrun
    refine ⟨fun _ => rfl, fun _ _ => rfl, fun out hout => ⟨?_, nofun⟩⟩
    rw [← run_succeeds_iff hout, houtcome]
    simp
  | ok told =>
    obtain ⟨text, left⟩ := told
    rw [houtcome] at hrun
    cases hrun
    refine ⟨fun hout => files_of_print hout houtcome, nofun, fun out hout => ⟨?_, ?_⟩⟩
    · rw [← run_succeeds_iff hout, houtcome]
      simp
    · intro _ _
      exact files_of_write hout houtcome

/-- A document. -/
def sevenDocument : String := "\x7b\"id\":7,\"x\":[],\"y\":[0.5]\x7d"

/-- A tree whose one file is the document, under the name of a buffer. -/
def misnamedDocument : Files.Tree := .ofFiles [("p.tsf", Text.toUtf8 sevenDocument.toList)]

/-- The path of the document. -/
def sevenPath : Path := ⟨7, [], [⟨0x3fe0000000000000⟩]⟩

theorem brings_sevenPath (f : Format) : (pack "p.tsf" "./p.tsf").Brings f misnamedDocument sevenPath := by
  refine ⟨_, sevenDocument, rfl, ?_, ?_⟩
  · decide +kernel
  · decide +kernel

/-- The document is packed into its own file, which is named in another way. With a limit below the length of its `y` it
is not packed, and the file is still the document. -/
theorem files_survive_packing_in_place :
    (∃ text after, ((pack "p.tsf" "./p.tsf").perform .ofTree {}).run misnamedDocument = (.ok text, after) ∧
      (Transfer.readFile {} after "./p.tsf").outcome = .ok sevenPath) ∧
    ∃ fault, ((pack "p.tsf" "./p.tsf").perform .ofTree { limit := 0 }).run misnamedDocument =
      (.error fault, misnamedDocument) := by
  constructor
  · obtain ⟨-, -, hwrites⟩ := files_survive_commands {} misnamedDocument (pack "p.tsf" "./p.tsf") _ _ rfl
    obtain ⟨hsucceeds, hholds⟩ := hwrites _ rfl
    obtain ⟨text, htext⟩ := hsucceeds.mpr ⟨sevenPath, brings_sevenPath {}, by decide, _, rfl⟩
    obtain ⟨p, bytes, hp, -, -, hread⟩ := hholds text htext
    cases hp.unique (brings_sevenPath {})
    exact ⟨text, _, Prod.ext htext rfl, hread⟩
  · obtain ⟨-, hfails, hwrites⟩ :=
      files_survive_commands { limit := 0 } misnamedDocument (pack "p.tsf" "./p.tsf") _ _ rfl
    obtain ⟨hsucceeds, -⟩ := hwrites _ rfl
    cases hresult : (((pack "p.tsf" "./p.tsf").perform .ofTree { limit := 0 }).run misnamedDocument).1 with
    | error fault => exact ⟨fault, Prod.ext hresult (hfails fault hresult)⟩
    | ok text =>
      obtain ⟨p, hp, hwithin, -⟩ := hsucceeds.mp ⟨text, hresult⟩
      cases hp.unique (brings_sevenPath _)
      exact absurd hwithin (by decide)

end Polypath.Command
