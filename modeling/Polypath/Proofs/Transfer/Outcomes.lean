import Polypath.Proofs.Store.Changes
import Polypath.Transfer.Basic

/-!
# The outcomes of moving paths

Moving a path out of a store begins with the store's answer for its handle (`outcome_fetch_bind`), and moving one in
ends with storing it (`arrive_eq_ok_iff`). All that can fail comes before anything is changed: whatever goes wrong on
the way into a store leaves the store as it was (`clean_arrive`), and whatever goes wrong on the way into a file leaves
the files as they were (`clean_serializeFile`).
-/

namespace Polypath.Transfer

open Journal Wire Outcome

variable {s t : Store} {h : Handle} {β : Type}

/-! ## Out of a store -/

@[simp]
theorem outcome_fetch (s : Store) (h : Handle) : (fetch s h).outcome = (s.get h).mapError .store := rfl

/-- Nothing is moved out of a store under a handle that is not live. -/
theorem outcome_fetch_bind (hn : s.find? h = none) (next : Path → Report Fault β) :
    (fetch s h >>= next).outcome = .error (.store (.invalidHandle h)) := by
  rw [Report.outcome_bind, outcome_fetch, Store.get_eq_error hn, mapError_error, error_bind]

/-- Moving a path out of a store begins with the path. -/
theorem outcome_fetch_bind_of_live {p : Path} (hp : s.find? h = some p) (next : Path → Report Fault β) :
    (fetch s h >>= next).outcome = (next p).outcome := by
  rw [Report.outcome_bind, outcome_fetch, Store.get_eq_ok_iff.mpr hp, mapError_ok, ok_bind]

/-! ## Into a store -/

/-- Stores the path that arrives. -/
abbrev arrive (arrival : Report Fault Path) : Act Store Fault Handle := Act.ofReport arrival >>= accept

theorem accept_eq_ok_iff {p : Path} : (accept p).result s = (.ok h, t) ↔ s.Stored p h t := by
  rw [accept, Act.adapt_eq_ok_iff, Store.insert_eq_ok_iff]

/-- What arrives is stored. -/
theorem result_arrive {arrival : Report Fault Path} {p : Path} (ha : arrival.outcome = .ok p) (s : Store) :
    (arrive arrival).result s = (accept p).result s := by
  rw [arrive, Act.result_bind, Act.result_ofReport, ha, Act.chain_ok]

/-- Moving a path into a store succeeds exactly when the path arrives and can be stored. -/
theorem arrive_eq_ok_iff {arrival : Report Fault Path} :
    (arrive arrival).result s = (.ok h, t) ↔ ∃ p, arrival.outcome = .ok p ∧ s.Stored p h t := by
  simp only [arrive, Act.result_bind, Act.result_ofReport, Act.chain_eq_ok_iff, Prod.mk.injEq, accept_eq_ok_iff]
  constructor
  · rintro ⟨p, _, ⟨ha, rfl⟩, hi⟩
    exact ⟨p, ha, hi⟩
  · rintro ⟨p, ha, hi⟩
    exact ⟨p, s, ⟨ha, rfl⟩, hi⟩

theorem clean_accept (p : Path) : Act.Clean (accept p) := (Store.clean_insert p).adapt Fault.store

/-- Whatever goes wrong on the way into a store leaves it as it was. -/
theorem clean_arrive (arrival : Report Fault Path) : Act.Clean (arrive arrival) :=
  (Act.still_look _).bind clean_accept

/-! ## Into a file -/

theorem putFile_eq_ok_iff {tree after : Files.Tree} {file : String} {bytes : List UInt8} :
    (putFile file bytes).result tree = (.ok (), after) ↔ tree.write file bytes = .ok after := by
  unfold putFile Files.Tree.write
  rw [Act.result_bind, Act.result_ask]
  cases tree.target file <;> simp

theorem clean_putFile (file : String) (bytes : List UInt8) : Act.Clean (putFile file bytes) :=
  (Act.still_look _).bind fun _ => (Act.sure_change _).clean

/-- A path that is not written or not let into its file leaves all files as they were: what is to be put there is known
before the file is touched. -/
theorem clean_serializeFile (f : Format) (s : Store) (h : Handle) (file : String) :
    Act.Clean (serializeFile f s h file) :=
  (Act.still_look _).bind fun _ => (Act.still_look _).bind fun bytes =>
    ((clean_putFile file bytes).adapt Fault.file).bind fun _ => Act.sure_tell _

end Polypath.Transfer
