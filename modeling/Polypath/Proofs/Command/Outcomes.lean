import Polypath.Command.Basic
import Polypath.Proofs.Transfer.Contents

/-!
# What commands come to

The outcome of a command is told without its events. A command that prints reads one file as a path and puts the path
into words (`outcome_run_inspect`, `outcome_run_dump`, `outcome_run_toBase64`). A command that writes is brought a path
(`Brings`), and succeeds exactly when the path respects the limit and the file can be written (`run_writes_iff`).
-/

namespace Polypath.Command

open Journal Wire Outcome

/-! ## Decisions -/

/-- What a decision comes to among the files of a tree. -/
def Decision.outcome (tree : Files.Tree) : Decision → Except Fault (String × Files.Tree)
  | .print text => .ok (text, tree)
  | .write file content text => do
    let after ← (tree.write file content).mapError fun fault => .transfer (.file fault)
    return (text, after)

theorem outcome_run (f : Format) (tree : Files.Tree) (c : Command) :
    (c.run f tree).outcome = (c.decide f tree.read).outcome >>= Decision.outcome tree := by
  rw [run, Report.outcome_bind]
  congr 1
  funext decision
  cases decision with
  | print text => rfl
  | write file content text =>
    simp only [Decision.outcome, Report.outcome_bind, Report.outcome_ofExcept, Report.outcome_tell, Report.outcome_pure,
      ok_bind, pure_eq_ok]

/-! ## Commands that print -/

section Printing

variable (f : Format) (tree : Files.Tree) (file : String)

/-- The words of `dump`. -/
def dumpText (p : Path) (pretty : Bool) : String :=
  String.ofList (if pretty then Json.prettyPath p else Json.compactPath p)

theorem outcome_run_inspect : ((inspect file).run f tree).outcome =
    (tree.read file).mapError .file >>= fun bytes =>
      (readHeader bytes).mapError (fun fault => .transfer (.buffer fault)) >>= fun header =>
        (f.decode bytes).mapError (fun fault => .transfer (.buffer fault)) >>= fun p =>
          .ok (s!"{file} ({bytes.length} bytes)\n{header.text}\ny_count={p.y.length}", tree) := by
  rw [outcome_run, decide]
  simp only [Report.outcome_bind, Report.outcome_ofExcept, Report.outcome_adapt, Report.outcome_pure,
    Transfer.outcome_decodeWhole, peekHeader_eq_readHeader, mapError_mapError, bind_assoc, ok_bind, Decision.outcome]

theorem outcome_run_dump (pretty : Bool) : ((dump file pretty).run f tree).outcome =
    (Transfer.readFile f tree file).outcome.mapError .transfer >>= fun p => .ok (dumpText p pretty, tree) := by
  rw [outcome_run, decide, readBuffer, Transfer.readFile]
  simp only [Report.outcome_bind, Report.outcome_adapt, Report.outcome_pure, bind_assoc, ok_bind, Decision.outcome,
    dumpText]

theorem outcome_run_toBase64 : ((toBase64 file).run f tree).outcome =
    (Transfer.readFile f tree file).outcome.mapError .transfer >>= fun p =>
      (f.encode p).mapError (fun fault => .transfer (.buffer fault)) >>= fun bytes =>
        .ok (Text.ofAscii (Text.Base64Url.encode bytes), tree) := by
  rw [outcome_run, decide, readBuffer, Transfer.readFile]
  simp only [Report.outcome_bind, Report.outcome_adapt, Report.outcome_pure, Transfer.outcome_toText, mapError_bind,
    mapError_mapError, mapError_ok, bind_assoc, ok_bind, Decision.outcome]

end Printing

/-! ## Commands that write -/

/-- The file that a command writes. -/
def output? : Command → Option String
  | .pack _ out | .fromBase64 _ out => some out
  | .inspect _ | .dump _ _ | .toBase64 _ => none

/-- The path that a command is to write: the one of its document or the one of its text. -/
def Brings (f : Format) (tree : Files.Tree) (p : Path) : Command → Prop
  | .pack document _ => ∃ content text,
    tree.read document = .ok content ∧ Text.ofUtf8? content = some text ∧ Json.readPath text.toList = .ok p
  | .fromBase64 text _ => ∃ bytes,
    Text.Base64Url.decode (Text.toUtf8 (Text.trim text.toList)) = .ok bytes ∧ f.decode bytes = .ok p
  | .inspect _ | .dump _ _ | .toBase64 _ => False

/-- A command is brought one path at most. -/
theorem Brings.unique {f : Format} {tree : Files.Tree} {c : Command} {p q : Path} (hp : c.Brings f tree p)
    (hq : c.Brings f tree q) : p = q := by
  cases c with
  | pack document out =>
    obtain ⟨content, text, hread, htext, hp⟩ := hp
    obtain ⟨content', text', hread', htext', hq⟩ := hq
    cases hread.symm.trans hread'
    cases htext.symm.trans htext'
    cases hp.symm.trans hq
    rfl
  | fromBase64 text out =>
    obtain ⟨bytes, hbytes, hp⟩ := hp
    obtain ⟨bytes', hbytes', hq⟩ := hq
    cases hbytes.symm.trans hbytes'
    cases hp.symm.trans hq
    rfl
  | inspect | dump | toBase64 => exact hp.elim

/-- The words of a command that has written a path. -/
def writtenText (p : Path) (out : String) : String :=
  s!"wrote path {p.id} ({p.x.length} x, {p.y.length} y) to {out}"

section Writing

variable {f : Format} {tree after : Files.Tree} {c : Command} {out text : String} {p : Path}

theorem outcome_readDocumentFile_eq_ok_iff {read : Reader} {file : String} :
    (readDocumentFile read file).outcome = .ok p ↔ ∃ content text,
      read file = .ok content ∧ Text.ofUtf8? content = some text ∧ Json.readPath text.toList = .ok p := by
  simp only [readDocumentFile, Report.outcome_bind, Report.outcome_ofExcept, bind_eq_ok_iff, mapError_eq_ok_iff]
  refine exists_congr fun content => ?_
  cases Text.ofUtf8? content with
  | none => simp
  | some text => simp [mapError_eq_ok_iff]

theorem outcome_decideWrite (f : Format) (out : String) (p : Path) : (decideWrite f out p).outcome =
    (f.encode p).mapError (fun fault => .transfer (.buffer fault)) >>= fun bytes =>
      .ok (.write out bytes (writtenText p out)) := by
  unfold decideWrite
  split
  · simp only [Report.outcome_bind, Report.outcome_tell, Report.outcome_adapt, Report.outcome_pure,
      Transfer.outcome_encode, mapError_mapError, ok_bind]
    rfl
  · simp only [Report.outcome_bind, Report.outcome_adapt, Report.outcome_pure, Transfer.outcome_encode,
      mapError_mapError]
    rfl

/-- A path that arrives is written exactly when it respects the limit and the file can be written. -/
theorem arrival_writes_iff {arrival : Report Fault Path} :
    ((arrival >>= decideWrite f out).outcome >>= Decision.outcome tree) = .ok (text, after) ↔
      ∃ p, arrival.outcome = .ok p ∧
        ∃ bytes, f.encode p = .ok bytes ∧ tree.write out bytes = .ok after ∧ writtenText p out = text := by
  simp only [Report.outcome_bind, outcome_decideWrite, bind_assoc, ok_bind, Decision.outcome, bind_eq_ok_iff,
    mapError_eq_ok_iff, pure_eq_ok, Except.ok.injEq, Prod.mk.injEq]
  constructor
  · rintro ⟨p, hp, bytes, hbytes, _, hwrite, htext, rfl⟩
    exact ⟨p, hp, bytes, hbytes, hwrite, htext⟩
  · rintro ⟨p, hp, bytes, hbytes, hwrite, htext⟩
    exact ⟨p, hp, bytes, hbytes, after, hwrite, htext, rfl⟩

/-- **When a command writes.** It succeeds exactly when it is brought a path that respects the limit and its file can be
written, and then the file is written with the buffer of that path. -/
theorem run_writes_iff (hout : c.output? = some out) : (c.run f tree).outcome = .ok (text, after) ↔
    ∃ p, c.Brings f tree p ∧
      ∃ bytes, f.encode p = .ok bytes ∧ tree.write out bytes = .ok after ∧ writtenText p out = text := by
  rw [outcome_run]
  cases c with
  | pack document out =>
    cases hout
    exact arrival_writes_iff.trans (exists_congr fun p => and_congr_left fun _ => outcome_readDocumentFile_eq_ok_iff)
  | fromBase64 source out =>
    cases hout
    refine arrival_writes_iff.trans (exists_congr fun p => and_congr_left fun _ => ?_)
    simp only [Report.outcome_adapt, mapError_eq_ok_iff, Transfer.outcome_ofText, bind_eq_ok_iff, Brings]
  | inspect | dump | toBase64 => cases hout

end Writing

end Polypath.Command
