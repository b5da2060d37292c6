import Polypath.Proofs.Files.Tree
import Polypath.Proofs.Text.Base64Url
import Polypath.Proofs.Transfer.Capacity
import Polypath.Proofs.Transfer.Contents

/-!
# All ways agree

A path can leave a store as a buffer, as text or as a file (`Way`), is then a parcel (`Parcel`), and can come back into
the store. All three ways refuse the same paths, with the same fault (`send_of_not_within`), and a path that is sent is
in its parcel and comes out of it (`exists_parcel`), so what is stored in the end does not depend on the way. The main
statement is `transports_agree`. It has to except a full store, which lets nothing back in, and a buffer whose length is
reported wrong (`full_store_takes_nothing_back`).
-/

namespace Polypath.Transfer

open Journal Wire Outcome

/-! ## Sending and receiving -/

/-- The ways in which a path can go. -/
inductive Way where
  /-- As a buffer, whose length is reported to the reader or not. -/
  | buffer (reported : Option Nat)
  | text
  /-- As the file of a name among other files. -/
  | file (tree : Files.Tree) (name : String)
deriving DecidableEq, Repr

/-- Nothing stands in the way of a path but a length that is reported wrong and a file that cannot be written. -/
def Way.IsOpen (p : Path) : Way → Prop
  | .buffer reported => ∀ n ∈ reported, n = (pathBytes .one p).length
  | .text => True
  | .file tree name => tree.Writable name

/-- What a path is underway: a buffer and its reported length, a text, or the file of a name. -/
inductive Parcel where
  | buffer (reported : Option Nat) (bytes : List UInt8)
  | text (text : String)
  | file (tree : Files.Tree) (name : String)
deriving DecidableEq, Repr

/-- Sends the path of a handle on its way. -/
def send (f : Format) (s : Store) (h : Handle) : Way → Report Fault Parcel
  | .buffer reported => return .buffer reported (← serialize f s h)
  | .text => return .text (← serializeText f s h)
  | .file tree name => return .file (← (serializeFile f s h name).making tree) name

/-- Stores the path that arrives. -/
def receive (f : Format) : Parcel → Act Store Fault Handle
  | .buffer reported bytes => deserialize f reported bytes
  | .text text => deserializeText f text
  | .file tree name => deserializeFile f tree name

/-- The way out of a store and back into it. -/
def trip (f : Format) (h : Handle) (way : Way) : Act Store Fault Handle := do
  let parcel ← Act.look fun s => send f s h way
  receive f parcel

variable {f : Format} {s : Store} {h : Handle} {p : Path}

theorem result_trip {way : Way} {parcel : Parcel} (hsend : (send f s h way).outcome = .ok parcel) :
    (trip f h way).result s = (receive f parcel).result s := by
  rw [trip, Act.result_bind, Act.result_look, hsend, Act.chain_ok]

theorem result_trip_of_error {way : Way} {fault : Fault} (hsend : (send f s h way).outcome = .error fault) :
    (trip f h way).result s = (.error fault, s) := by
  rw [trip, Act.result_bind, Act.result_look, hsend, Act.chain_error]

/-! ## Sending a live path -/

section Live

variable (f) (hp : s.find? h = some p)
include hp

theorem outcome_serialize_of_live : (serialize f s h).outcome = (f.encode p).mapError .buffer := by
  rw [serialize, outcome_fetch_bind_of_live hp, outcome_encode]

theorem outcome_serializeText_of_live : (serializeText f s h).outcome =
    (f.encode p).mapError .buffer >>= fun bytes => .ok (Text.ofAscii (Text.Base64Url.encode bytes)) := by
  rw [serializeText, outcome_fetch_bind_of_live hp, outcome_toText]

theorem result_serializeFile_of_live (tree : Files.Tree) (name : String) :
    (serializeFile f s h name).result tree = (writeFile f name p).result tree := by
  rw [serializeFile, Act.result_bind, Act.result_ofReport, outcome_fetch, Store.get_eq_ok_iff.mpr hp, mapError_ok,
    Act.chain_ok]

/-- A path that does not respect the limit is refused on every way, before anything is written. -/
theorem send_of_not_within (hlimit : ¬ p.Within f.limit) (way : Way) :
    (send f s h way).outcome = .error
      (.buffer (.tooManyElements (p.longAxis f.limit) (p.coords (p.longAxis f.limit)).length f.limit.toNat)) := by
  have hencode := Format.encode_of_not_within hlimit
  cases way with
  | buffer reported =>
    simp only [send, Report.outcome_bind, outcome_serialize_of_live f hp, hencode, mapError_error, error_bind]
  | text =>
    simp only [send, Report.outcome_bind, outcome_serializeText_of_live f hp, hencode, mapError_error, error_bind]
  | file tree name =>
    have hwrite : (serializeFile f s h name).result tree = (.error (.buffer (.tooManyElements (p.longAxis f.limit)
        (p.coords (p.longAxis f.limit)).length f.limit.toNat)), tree) := by
      simp only [result_serializeFile_of_live f hp, writeFile, Act.result_bind, Act.result_ofReport, outcome_encode,
        hencode, mapError_error, Act.chain_error]
    simp only [send, Report.outcome_bind, Act.outcome_making_of_error hwrite, error_bind]

/-- A path that respects the limit goes as its buffer, whatever length is reported. -/
theorem send_buffer (hlimit : p.Within f.limit) (reported : Option Nat) :
    (send f s h (.buffer reported)).outcome = .ok (.buffer reported (pathBytes .one p)) := by
  have hencode : f.encode p = .ok (pathBytes .one p) := encode_iff_holds.mpr ⟨hlimit, rfl⟩
  simp only [send, Report.outcome_bind, outcome_serialize_of_live f hp, hencode, mapError_ok, ok_bind,
    Report.outcome_pure]

/-- A path that respects the limit is sent on every open way, and it is this path that arrives in whatever store. -/
theorem exists_parcel (hlimit : p.Within f.limit) {way : Way} (hopen : way.IsOpen p) :
    ∃ parcel, (send f s h way).outcome = .ok parcel ∧
      ∀ u : Store, (receive f parcel).result u = (accept p).result u := by
  have hholds : Holds f.limit (pathBytes .one p) p := ⟨hlimit, rfl⟩
  have hencode := encode_iff_holds.mpr hholds
  cases way with
  | buffer reported =>
    exact ⟨_, send_buffer f hp hlimit reported, result_arrive (outcome_decode_eq_ok_iff.mpr ⟨hopen, hholds⟩)⟩
  | text =>
    refine ⟨.text (Text.ofAscii (Text.Base64Url.encode (pathBytes .one p))), ?_, result_arrive ?_⟩
    · simp only [send, Report.outcome_bind, outcome_serializeText_of_live f hp, hencode, mapError_ok, ok_bind,
        Report.outcome_pure]
    · have hread := Text.Base64Url.decode_trim_encode (pathBytes .one p) [] [] (by simp) (by simp)
      rw [List.nil_append, List.append_nil] at hread
      exact outcome_ofText_eq_ok_iff.mpr ⟨_, hread, hholds⟩
  | file tree name =>
    obtain ⟨after, hwrite⟩ := Files.Tree.Writable.write hopen (pathBytes .one p)
    refine ⟨.file after name, ?_, result_arrive ?_⟩
    · have hfile : (serializeFile f s h name).result tree = (.ok (), after) :=
        serializeFile_eq_ok_iff.mpr ⟨p, hp, _, hholds, hwrite⟩
      simp only [send, Report.outcome_bind, Act.outcome_making_eq_ok_iff.mpr hfile, ok_bind, Report.outcome_pure]
    · exact outcome_readFile_eq_ok_iff.mpr ⟨_, Files.Tree.read_of_write hwrite, hholds⟩

/-- What happens in the end does not depend on the way. -/
theorem trip_of_within (hlimit : p.Within f.limit) {way : Way} (hopen : way.IsOpen p) :
    (trip f h way).result s = (accept p).result s := by
  obtain ⟨parcel, hsend, hreceive⟩ := exists_parcel f hp hlimit hopen
  rw [result_trip hsend, hreceive]

/-- A full store takes nothing back. -/
theorem trip_of_full (hlimit : p.Within f.limit) {way : Way} (hopen : way.IsOpen p) (hfull : ¬ s.HasRoom) :
    (trip f h way).result s = (.error (.store .exhausted), s) := by
  rw [trip_of_within f hp hlimit hopen, accept, Act.result_adapt, Store.insert_of_full hfull, mapError_error]

/-- A buffer whose length is reported wrong is not taken back. -/
theorem trip_of_wrong_length (hlimit : p.Within f.limit) {n : Nat} (hn : n ≠ (pathBytes .one p).length) :
    (trip f h (.buffer (some n))).result s =
      (.error (.buffer (.lengthMismatch n (pathBytes .one p).length)), s) := by
  have hrefused : (decode f (some n) (pathBytes .one p)).outcome =
      .error (.buffer (.lengthMismatch n (pathBytes .one p).length)) := by
    rw [outcome_decode, Format.decodeReported_eq, checkReported, if_neg hn]
    rfl
  rw [result_trip (send_buffer f hp hlimit _), receive, deserialize, Act.result_bind, Act.result_ofReport, hrefused,
    Act.chain_error]

end Live

/-! ## There and back -/

/-- **All ways agree.** Whatever was done with a store before, take a live path of it and a limit. If the path is too
long for the limit, all ways out refuse it with one and the same fault. If it is not, it leaves on every open way and
comes back, unless paths and retired slots take all indices, under one handle, whatever the way: a handle that was not
live and has the same path, bit for bit. Nothing happens to the other paths, and there is one path more. Only a store
whose indices are all taken refuses the path when it comes back, and only a wrong length makes its buffer refused, and
whatever the refusal, the store stays as it was. -/
theorem transports_agree (errands : List Errand) (f : Format) (h : Handle) (p : Path)
    (hlive : (run .empty errands).2.find? h = some p) :
    let s := (run .empty errands).2
    (¬ p.Within f.limit → ∀ way,
      let fault : Fault :=
        .buffer (.tooManyElements (p.longAxis f.limit) (p.coords (p.longAxis f.limit)).length f.limit.toNat)
      (send f s h way).outcome = .error fault ∧ (trip f h way).result s = (.error fault, s)) ∧
    (p.Within f.limit →
      (∀ way : Way, way.IsOpen p → ∃ parcel, (send f s h way).outcome = .ok parcel) ∧
      (s.live + s.retired ≠ Store.capacity → ∃ k t,
        (∀ way : Way, way.IsOpen p → (trip f h way).result s = (.ok k, t)) ∧
        s.contains k = false ∧ t.find? k = some p ∧
        (∀ other q, s.find? other = some q → t.find? other = some q) ∧ t.live = s.live + 1) ∧
      (s.live + s.retired = Store.capacity → ∀ way : Way, way.IsOpen p →
        (trip f h way).result s = (.error (.store .exhausted), s)) ∧
      ∀ n, n ≠ (pathBytes .one p).length → (trip f h (.buffer (some n))).result s =
        (.error (.buffer (.lengthMismatch n (pathBytes .one p).length)), s)) := by
  intro s
  have hs : s.WellFormed := (run_reaches _ errands).wellFormed Store.wellFormed_empty
  refine ⟨fun hlimit way => ?_, fun hlimit => ?_⟩
  · have hsend := send_of_not_within f hlive hlimit way
    exact ⟨hsend, result_trip_of_error hsend⟩
  refine ⟨fun way hopen => ?_, fun hroom => ?_, fun hfull way hopen => ?_, fun n => trip_of_wrong_length f hlive hlimit⟩
  · obtain ⟨parcel, hsend, -⟩ := exists_parcel f hlive hlimit hopen
    exact ⟨parcel, hsend⟩
  · obtain ⟨k, t, hstored⟩ := Store.insert_of_hasRoom hs (hs.hasRoom_iff.mpr hroom) p
    have hnew : s.find? k = none := hstored.find?_before hs rfl
    refine ⟨k, t, fun way hopen => ?_, by simp [Store.contains, hnew], ?_, fun other q hother => ?_, hstored.live_eq⟩
    · rw [trip_of_within f hlive hlimit hopen, accept_eq_ok_iff.mpr hstored]
    · rw [hstored.find?_eq hs, if_pos rfl]
    · have hne : other ≠ k := by
        rintro rfl
        rw [hnew] at hother
        cases hother
      rw [hstored.find?_eq hs, if_neg hne, hother]
  · exact trip_of_full f hlive hlimit hopen fun hroom => hs.hasRoom_iff.mp hroom hfull

/-- A path with a NaN goes out as text, as a buffer and as a new file and comes back as the second path of the store. -/
theorem transports_agree_nan :
    let p : Path := ⟨7, [⟨0x7ff800000000beef⟩], []⟩
    let s := (run .empty [.request (.insert p)]).2
    ∃ k t, (trip { limit := 1 } ⟨0, .first⟩ .text).result s = (.ok k, t) ∧
      (trip { limit := 1 } ⟨0, .first⟩ (.buffer (some 32))).result s = (.ok k, t) ∧
      (trip { limit := 1 } ⟨0, .first⟩ (.file .empty "nan.tsf")).result s = (.ok k, t) ∧
      t.find? k = some p ∧ t.live = 2 := by
  intro p s
  have hfile : (Way.file .empty "nan.tsf").IsOpen p := ⟨Files.Tree.empty.home.child "nan.tsf", by rfl⟩
  have hbuffer : (Way.buffer (some 32)).IsOpen p := fun n hn => (Option.some.inj hn).symm
  obtain ⟨-, hwithin⟩ := transports_agree [.request (.insert p)] { limit := 1 } ⟨0, .first⟩ p (by rfl)
  obtain ⟨k, t, hway, -, hp, -, hcount⟩ := (hwithin (by decide)).2.1 (by decide +kernel)
  exact ⟨k, t, hway _ trivial, hway _ hbuffer, hway _ hfile, hp, hcount⟩

/-! ## The full store -/

/-- A store whose indices are all taken sends a path on all three ways and takes it back from none. And a store with
room does not take back a buffer whose length is reported wrong. -/
theorem full_store_takes_nothing_back :
    let full := (run .empty (List.replicate Store.capacity (.request (.create 7)))).2
    let roomy := (run .empty [.request (.create 7)]).2
    let h : Handle := ⟨0, .first⟩
    (full.find? h = some (.empty 7) ∧ (Path.empty 7).Within defaultLimit) ∧
    (∀ way ∈ [Way.buffer none, .text, .file .empty "p.tsf"],
      (∃ parcel, (send {} full h way).outcome = .ok parcel) ∧
        (trip {} h way).result full = (.error (.store .exhausted), full)) ∧
    (trip {} h (.buffer (some 25))).result roomy = (.error (.buffer (.lengthMismatch 25 24)), roomy) := by
  have hlive := find?_of_all_creates 7
  have hfull := not_hasRoom_of_creates 7
  have hlimit : (Path.empty 7).Within defaultLimit := by decide
  have hopen : ∀ way ∈ [Way.buffer none, .text, .file .empty "p.tsf"], way.IsOpen (.empty 7) := by
    simp only [List.mem_cons, List.not_mem_nil, or_false, forall_eq_or_imp, forall_eq]
    exact ⟨nofun, trivial, Files.Tree.empty.home.child "p.tsf", by rfl⟩
  refine ⟨⟨hlive, hlimit⟩, fun way hway => ⟨?_, trip_of_full {} hlive hlimit (hopen way hway) hfull⟩, ?_⟩
  · obtain ⟨parcel, hsend, -⟩ := exists_parcel {} hlive hlimit (hopen way hway)
    exact ⟨parcel, hsend⟩
  · exact trip_of_wrong_length {} (by rfl) hlimit (by decide)

end Polypath.Transfer
