import Polypath.Proofs.Transfer.Outcomes
import Polypath.Proofs.Wire.Canonical

/-!
# What is moved

A buffer, a text or a file is read as a path exactly when it holds the buffer of that path and the path respects the
limit (`Holds`), and a stored path is moved out exactly when it is live and respects the limit. Which of the three ways
a path goes makes a difference only in what stands around its buffer.
-/

namespace Polypath.Transfer

open Journal Wire Outcome

variable {f : Format} {p : Path} {s : Store} {h : Handle} {bytes : List UInt8}

/-- The buffer of a path that respects a limit. -/
def Holds (limit : UInt64) (bytes : List UInt8) (p : Path) : Prop :=
  p.Within limit ∧ bytes = pathBytes .one p

theorem decode_iff_holds : f.decode bytes = .ok p ↔ Holds f.limit bytes p := by
  rw [Format.decode_eq_ok_iff, Subsingleton.elim f.revision .one, Holds]

theorem encode_iff_holds : f.encode p = .ok bytes ↔ Holds f.limit bytes p := by
  rw [Format.encode_eq_ok_iff, Subsingleton.elim f.revision .one, Holds]

/-! ## Reading -/

@[simp]
theorem outcome_decode (f : Format) (reported : Option Nat) (bytes : List UInt8) :
    (decode f reported bytes).outcome = (f.decodeReported reported bytes).mapError .buffer := by
  simp only [decode, Report.outcome_bind, Report.outcome_ofExcept, Report.outcome_tell, Report.outcome_pure, ok_bind,
    Format.decodeReported, mapError_bind]
  refine congrArg _ (funext fun _ => congrArg _ (funext fun revision => ?_))
  change (f.decodeAs revision bytes).mapError Fault.buffer >>= Except.ok = _
  cases f.decodeAs revision bytes <;> rfl

theorem outcome_decode_eq_ok_iff {reported : Option Nat} : (decode f reported bytes).outcome = .ok p ↔
    (∀ n ∈ reported, n = bytes.length) ∧ Holds f.limit bytes p := by
  rw [outcome_decode, mapError_eq_ok_iff, Format.decodeReported_eq_ok_iff, decode_iff_holds]

@[simp]
theorem outcome_decodeWhole (f : Format) (bytes : List UInt8) :
    (decodeWhole f bytes).outcome = (f.decode bytes).mapError .buffer := by
  rw [decodeWhole, outcome_decode, Format.decodeReported_of_length (.inr rfl)]

theorem outcome_decodeWhole_eq_ok_iff : (decodeWhole f bytes).outcome = .ok p ↔ Holds f.limit bytes p := by
  rw [outcome_decodeWhole, mapError_eq_ok_iff, decode_iff_holds]

theorem outcome_ofText (f : Format) (text : String) : (ofText f text).outcome =
    (Text.Base64Url.decode (Text.toUtf8 (Text.trim text.toList))).mapError .text >>= fun bytes =>
      (f.decode bytes).mapError .buffer := by
  simp only [ofText, Report.outcome_bind, Report.outcome_ofExcept, outcome_decodeWhole]

theorem outcome_ofText_eq_ok_iff {text : String} : (ofText f text).outcome = .ok p ↔
    ∃ bytes, Text.Base64Url.decode (Text.toUtf8 (Text.trim text.toList)) = .ok bytes ∧ Holds f.limit bytes p := by
  simp only [outcome_ofText, bind_eq_ok_iff, mapError_eq_ok_iff, decode_iff_holds]

theorem outcome_ofFile (f : Format) (file : String) (content : Except Files.Fault (List UInt8)) :
    (ofFile f file content).outcome =
      content.mapError .file >>= fun bytes => (f.decode bytes).mapError .buffer := by
  simp only [ofFile, Report.outcome_bind, Report.outcome_ofExcept, Report.outcome_tell, ok_bind, outcome_decodeWhole]

theorem outcome_readFile_iff_decode {tree : Files.Tree} {file : String} : (readFile f tree file).outcome = .ok p ↔
    ∃ bytes, tree.read file = .ok bytes ∧ f.decode bytes = .ok p := by
  simp only [readFile, outcome_ofFile, bind_eq_ok_iff, mapError_eq_ok_iff]

theorem outcome_readFile_eq_ok_iff {tree : Files.Tree} {file : String} : (readFile f tree file).outcome = .ok p ↔
    ∃ bytes, tree.read file = .ok bytes ∧ Holds f.limit bytes p := by
  simp only [outcome_readFile_iff_decode, decode_iff_holds]

/-! ## Writing -/

@[simp]
theorem outcome_encode (f : Format) (p : Path) : (encode f p).outcome = (f.encode p).mapError .buffer := by
  simp only [encode, Report.outcome_bind, Report.outcome_ofExcept]
  cases f.encode p with
  | ok bytes => simp
  | error fault => simp

theorem outcome_toText (f : Format) (p : Path) : (toText f p).outcome =
    (f.encode p).mapError .buffer >>= fun bytes => .ok (Text.ofAscii (Text.Base64Url.encode bytes)) := by
  simp only [toText, Report.outcome_bind, outcome_encode, Report.outcome_pure]

theorem outcome_encode_eq_ok_iff : (encode f p).outcome = .ok bytes ↔ Holds f.limit bytes p := by
  rw [outcome_encode, mapError_eq_ok_iff, encode_iff_holds]

theorem outcome_serialize_eq_ok_iff : (serialize f s h).outcome = .ok bytes ↔
    ∃ p, s.find? h = some p ∧ Holds f.limit bytes p := by
  simp only [serialize, Report.outcome_bind, outcome_fetch, bind_eq_ok_iff, mapError_eq_ok_iff, Store.get_eq_ok_iff,
    outcome_encode_eq_ok_iff]

theorem outcome_serializeText_eq_ok_iff {text : String} : (serializeText f s h).outcome = .ok text ↔
    ∃ p, s.find? h = some p ∧ ∃ bytes, Holds f.limit bytes p ∧ Text.ofAscii (Text.Base64Url.encode bytes) = text := by
  simp only [serializeText, toText, Report.outcome_bind, Report.outcome_pure, outcome_fetch, bind_eq_ok_iff,
    mapError_eq_ok_iff, Store.get_eq_ok_iff, outcome_encode_eq_ok_iff, Except.ok.injEq]

theorem writeFile_eq_ok_iff {tree after : Files.Tree} {file : String} :
    (writeFile f file p).result tree = (.ok (), after) ↔
      ∃ bytes, Holds f.limit bytes p ∧ tree.write file bytes = .ok after := by
  simp only [writeFile, Act.result_bind, Act.result_ofReport, Act.result_tell, Act.chain_eq_ok_iff,
    Act.adapt_eq_ok_iff, Prod.mk.injEq, outcome_encode_eq_ok_iff]
  constructor
  · rintro ⟨bytes, _, ⟨hbytes, rfl⟩, _, _, hput, -, rfl⟩
    exact ⟨bytes, hbytes, putFile_eq_ok_iff.mp hput⟩
  · rintro ⟨bytes, hbytes, hwrite⟩
    exact ⟨bytes, tree, ⟨hbytes, rfl⟩, (), after, putFile_eq_ok_iff.mpr hwrite, trivial, rfl⟩

theorem serializeFile_eq_ok_iff {tree after : Files.Tree} {file : String} :
    (serializeFile f s h file).result tree = (.ok (), after) ↔
      ∃ p, s.find? h = some p ∧ ∃ bytes, Holds f.limit bytes p ∧ tree.write file bytes = .ok after := by
  simp only [serializeFile, Act.result_bind, Act.result_ofReport, Act.chain_eq_ok_iff, Prod.mk.injEq, outcome_fetch,
    mapError_eq_ok_iff, Store.get_eq_ok_iff, writeFile_eq_ok_iff]
  constructor
  · rintro ⟨p, _, ⟨hp, rfl⟩, hwrite⟩
    exact ⟨p, hp, hwrite⟩
  · rintro ⟨p, hp, hwrite⟩
    exact ⟨p, tree, ⟨hp, rfl⟩, hwrite⟩

end Polypath.Transfer
