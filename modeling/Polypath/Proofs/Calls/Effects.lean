import Polypath.Calls.Session
import Polypath.Proofs.Files.Tree
import Polypath.Proofs.Store.RawHandles
import Polypath.Proofs.Store.Requests
import Polypath.Proofs.Text.Ascii
import Polypath.Proofs.Transfer.Contents

/-!
# What calls do

The answer to a call rests on the paths that raw handles have, on the files and on the limit (`Basis`), and all that it
changes is told by an `Effect`: nothing, or one path, or the files. `Basis.Answers` lists the answers with their
effects, in pairs: when a call does what it is for, and when it does not. A call reads no cell of its caller, so what it
has to give (`Call.Gives`) does not depend on its cells.

* **Calls keep to the list** (`call_answered`): whatever the session and the call, the reply is one of the list, and the
  session undergoes its effect.
* **Failures are clean** (`calls_fail_cleanly`): a call that returns `false` or zero has changed neither the store nor
  a file nor a cell, and one that returns `true` was given all its cells and has filled them. A session keeps whatever a
  failed request leaves behind; that there is nothing rests on the order in which the request does things
  (`tried_perform`).
-/

namespace Polypath.Calls

open Journal Wire Polypath.Outcome

/-! ## Cells -/

/-- What a cell can hold. -/
inductive Content where
  | id (id : UInt32)
  | count (count : Nat)
  | coord (coord : Coord)
  | coords (values : Option (List Coord))
  | bytes (bytes : Option (List UInt8))
deriving DecidableEq, Repr

/-- The cells that a call is given. -/
def Call.cells : Call → List (Cell Content)
  | .getId _ out => [out.map .id]
  | .getCount _ _ out => [out.map .count]
  | .getItem _ _ _ out => [out.map .coord]
  | .getCoords _ _ outValues outCount => [outValues.map .coords, outCount.map .count]
  | .serialize _ outBytes outLength => [outBytes.map .bytes, outLength.map .count]
  | .serializeText _ outText outLength => [outText.map .bytes, outLength.map .count]
  | _ => []

namespace Reply

/-- The cells after a call. -/
def cells : Reply → List (Cell Content)
  | .id _ out => [out.map .id]
  | .count _ out => [out.map .count]
  | .coord _ out => [out.map .coord]
  | .coords _ outValues outCount => [outValues.map .coords, outCount.map .count]
  | .bytes _ outBytes outLength => [outBytes.map .bytes, outLength.map .count]
  | _ => []

/-- The truth value that a call returns. -/
def flag? : Reply → Option Bool
  | .flag success | .id success _ | .count success _ | .coord success _ | .coords success _ _
  | .bytes success _ _ => some success
  | .made _ | .live _ | .nothing => none

/-- The call returns `false` or zero. -/
def ReturnsZero (r : Reply) : Prop := r.flag? = some false ∨ r = .made Handle.invalidRaw ∨ r = .live 0

end Reply

/-! ## What calls are for -/

namespace Call

/-- Whether the call makes a path. -/
def isMaking : Call → Bool
  | .create _ | .deserialize _ | .deserializeText _ | .deserializeFile _ => true
  | _ => false

/-- Whether the call gives something in cells. -/
def isReading : Call → Bool
  | .getId _ _ | .getCount _ _ _ | .getItem _ _ _ _ | .getCoords _ _ _ _ | .serialize _ _ _
  | .serializeText _ _ _ => true
  | _ => false

/-- The path that a call brings: an empty one, or the one whose buffer is passed, spelled or in a file. -/
def Brings (limit : UInt64) (tree : Files.Tree) : Call → Path → Prop
  | .create id, p => p = .empty id
  | .deserialize input, p => ∃ bytes, input.items? = some bytes ∧ Transfer.Holds limit bytes p
  | .deserializeText input, p =>
    ∃ letters text bytes, input.items? = some letters ∧ Text.ofUtf8? letters = some text ∧
      Text.Base64Url.decode (Text.toUtf8 (Text.trim text.toList)) = .ok bytes ∧ Transfer.Holds limit bytes p
  | .deserializeFile file, p =>
    ∃ name bytes, Session.fileName? file = some name ∧ tree.read name = .ok bytes ∧ Transfer.Holds limit bytes p
  | _, _ => False

/-- What a call has to give. -/
def Gives (limit : UInt64) (path? : UInt64 → Option Path) : Call → List Content → Prop
  | .getId raw _, contents => ∃ p, path? raw = some p ∧ contents = [.id p.id]
  | .getCount axis raw _, contents => ∃ p, path? raw = some p ∧ contents = [.count (p.coords axis).length]
  | .getItem axis raw index _, contents =>
    ∃ p c, path? raw = some p ∧ (p.coords axis)[index]? = some c ∧ contents = [.coord c]
  | .getCoords axis raw _ _, contents =>
    ∃ p, path? raw = some p ∧ contents = [.coords (some (p.coords axis)), .count (p.coords axis).length]
  | .serialize raw _ _, contents =>
    ∃ p bytes, path? raw = some p ∧ Transfer.Holds limit bytes p ∧ contents = [.bytes (some bytes), .count bytes.length]
  | .serializeText raw _ _, contents =>
    ∃ p bytes, path? raw = some p ∧ Transfer.Holds limit bytes p ∧
      contents = [.bytes (some (Text.Base64Url.encode bytes)), .count (Text.Base64Url.encode bytes).length]
  | _, contents => contents = []

end Call

/-! ## Answers and effects -/

/-- What a call changes. -/
inductive Effect where
  | nothing
  | made (raw : UInt64) (p : Path)
  | destroyed (raw : UInt64)
  | replaced (raw : UInt64) (p : Path)
  | wrote (tree : Files.Tree)

/-- All that the answer to a call rests on. -/
structure Basis where
  limit : UInt64
  tree : Files.Tree
  path? : UInt64 → Option Path
  /-- No further path can be made. -/
  full : Prop
  live : Nat

/-- The answers to calls, and what they change. -/
inductive Basis.Answers (b : Basis) : Call → Reply → Effect → Prop
  | made {c : Call} {p : Path} {raw : UInt64} :
      c.Brings b.limit b.tree p → ¬ b.full → raw ≠ Handle.invalidRaw → Answers b c (.made raw) (.made raw p)
  | notMade {c : Call} :
      c.isMaking = true → (∀ p, c.Brings b.limit b.tree p → b.full) →
      Answers b c (.made Handle.invalidRaw) .nothing
  | destroyed {raw : UInt64} {p : Path} :
      b.path? raw = some p → Answers b (.destroy raw) (.flag true) (.destroyed raw)
  | notDestroyed {raw : UInt64} : b.path? raw = none → Answers b (.destroy raw) (.flag false) .nothing
  | set {axis : Axis} {raw : UInt64} {input : Input Coord} {p : Path} {values : List Coord} :
      b.path? raw = some p → input.items? = some values →
      Answers b (.set axis raw input) (.flag true) (.replaced raw (p.replace axis values))
  | notSet {axis : Axis} {raw : UInt64} {input : Input Coord} :
      b.path? raw = none ∨ input.items? = none → Answers b (.set axis raw input) (.flag false) .nothing
  | given {c : Call} {r : Reply} {contents : List Content} :
      c.isReading = true → (∀ cell ∈ c.cells, cell ≠ none) → c.Gives b.limit b.path? contents →
      r.flag? = some true → r.cells = contents.map some → Answers b c r .nothing
  | notGiven {c : Call} {r : Reply} :
      c.isReading = true → (none ∈ c.cells ∨ ∀ contents, ¬ c.Gives b.limit b.path? contents) →
      r.flag? = some false → r.cells = c.cells → Answers b c r .nothing
  | written {raw : UInt64} {file : Option (List UInt8)} {name : String} {p : Path} {bytes : List UInt8}
      {after : Files.Tree} :
      Session.fileName? file = some name → b.path? raw = some p → Transfer.Holds b.limit bytes p →
      b.tree.write name bytes = .ok after → Answers b (.serializeFile raw file) (.flag true) (.wrote after)
  | notWritten {raw : UInt64} {file : Option (List UInt8)} :
      (∀ name p bytes after, Session.fileName? file = some name → b.path? raw = some p →
        Transfer.Holds b.limit bytes p → b.tree.write name bytes ≠ .ok after) →
      Answers b (.serializeFile raw file) (.flag false) .nothing
  | live : Answers b .liveCount (.live b.live) .nothing
  | nothing : Answers b .freeNothing .nothing .nothing

namespace Session

variable {s : Session} {α : Type}

/-- The path of a raw handle. -/
def path? (s : Session) (raw : UInt64) : Option Path := (Handle.ofRaw? raw).bind s.store.find?

/-- What a session has for its answers to rest on. -/
def basis (s : Session) : Basis :=
  ⟨s.format.limit, s.tree, s.path?, ∀ p h t, ¬ s.store.Stored p h t, s.store.live⟩

/-- How an effect shows in a session. A call that changes nothing may still be the first to need the store. -/
inductive Undergoes (s : Session) : Effect → Session → Prop
  | idle : Undergoes s .nothing s
  | opened : Undergoes s .nothing { s with opened := true }
  | made {p : Path} {h : Handle} {t : Store} :
      s.store.Stored p h t → Undergoes s (.made h.toRaw p) { s with store := t, opened := true }
  | destroyed {h : Handle} {t : Store} :
      s.store.Destroyed h t → Undergoes s (.destroyed h.toRaw) { s with store := t, opened := true }
  | replaced {h : Handle} {axis : Axis} {values : List Coord} {p : Path} {t : Store} :
      s.store.find? h = some p → s.store.Replaced h axis values t →
      Undergoes s (.replaced h.toRaw (p.replace axis values)) { s with store := t, opened := true }
  | wrote {tree : Files.Tree} : Undergoes s (.wrote tree) { s with tree := tree, opened := true }

/-- A call is answered: one of the listed answers is given, and its effect undergone. -/
def Answered (s : Session) (c : Call) (out : Outcome) : Prop :=
  ∃ effect, s.basis.Answers c out.reply effect ∧ s.Undergoes effect out.session

theorem path?_eq_some_iff {raw : UInt64} {p : Path} :
    s.path? raw = some p ↔ ∃ h, Handle.ofRaw? raw = some h ∧ s.store.find? h = some p :=
  Option.bind_eq_some_iff

/-! ## Requests -/

/-- A request gives a result that it can give, if there is one, and otherwise leaves the session as it was. -/
inductive Tried (s : Session) (can : α → Session → Prop) : Ran α → Prop
  | done {a : α} {after : Session} {events : List Event} : can a after → Tried s can ⟨some a, after, events⟩
  | refused {after : Session} {events : List Event} :
      (∀ a later, ¬ can a later) → s.Undergoes .nothing after → Tried s can ⟨none, after, events⟩

theorem Tried.congr {can can' : α → Session → Prop} {ran : Ran α} (hran : s.Tried can ran)
    (hcan : ∀ a after, can a after ↔ can' a after) : s.Tried can' ran := by
  have heq : can = can' := funext fun a => funext fun after => propext (hcan a after)
  exact heq ▸ hran

theorem tried_reject {can : α → Session → Prop} (hcan : ∀ a after, ¬ can a after) (e : Event) :
    s.Tried can (s.reject e) :=
  .refused hcan .idle

/-- A request whose failures are clean leaves no more behind than the opened session. -/
theorem tried_perform {ε : Type} {request : Act Session ε α} (hclean : Act.Clean request) (tellFault : ε → Event) :
    s.Tried (fun a after => request.result { s with opened := true } = (.ok a, after))
      (s.perform tellFault request) := by
  unfold perform
  dsimp only
  split
  · next a after hok => exact .done hok
  · next fault after hfail =>
    cases hclean _ _ _ hfail
    refine .refused (fun a after hok => ?_) .opened
    cases hok.symm.trans hfail

theorem tried_onStore {ε : Type} {act : Act Store ε α} (hclean : Act.Clean act) (tellFault : ε → Event) :
    s.Tried (fun a after => ∃ t, act.result s.store = (.ok a, t) ∧ after = { s with store := t, opened := true })
      (s.perform tellFault (onStore act)) :=
  (tried_perform (hclean.onPart _ _ fun _ => rfl) tellFault).congr fun _ _ => Act.onPart_eq_ok_iff

theorem tried_onTree {ε : Type} {act : Act Files.Tree ε α} (hclean : Act.Clean act) (tellFault : ε → Event) :
    s.Tried (fun a after => ∃ t, act.result s.tree = (.ok a, t) ∧ after = { s with tree := t, opened := true })
      (s.perform tellFault (onTree act)) :=
  (tried_perform (hclean.onPart _ _ fun _ => rfl) tellFault).congr fun _ _ => Act.onPart_eq_ok_iff

theorem tried_withHandle {can : Handle → α → Session → Prop} {request : Handle → Ran α}
    (hrequest : ∀ h, s.Tried (can h) (request h)) (call : String) (raw : UInt64) :
    s.Tried (fun a after => ∃ h, Handle.ofRaw? raw = some h ∧ can h a after) (s.withHandle call raw request) := by
  unfold withHandle
  split
  · next hraw => exact tried_reject (by simp [hraw]) _
  · next h hraw => exact (hrequest h).congr (by simp [hraw])

theorem tried_withFileName {can : String → α → Session → Prop} {request : String → Ran α}
    (hrequest : ∀ name, s.Tried (can name) (request name)) (call : String) (file : Option (List UInt8)) :
    s.Tried (fun a after => ∃ name, fileName? file = some name ∧ can name a after)
      (s.withFileName call file request) := by
  unfold withFileName
  split
  · next hfile => exact tried_reject (by simp [hfile]) _
  · next name hfile => exact (hrequest name).congr (by simp [hfile])

/-- A request that only looks at the path of a raw handle. -/
theorem tried_look {ε : Type} {has : α → Path → Prop} {request : Session → Handle → Report ε α}
    (hrequest : ∀ h a, (request { s with opened := true } h).outcome = .ok a ↔
      ∃ p, s.store.find? h = some p ∧ has a p)
    (tellFault : ε → Event) (call : String) (raw : UInt64) :
    s.Tried (fun a after => (∃ p, s.path? raw = some p ∧ has a p) ∧ after = { s with opened := true })
      (s.withHandle call raw fun h => s.perform tellFault (Act.look fun s => request s h)) := by
  refine (tried_withHandle (fun h => tried_perform (Act.still_look _).clean tellFault) call raw).congr fun a after => ?_
  simp only [Act.result_look, Prod.mk.injEq, hrequest, path?_eq_some_iff]
  constructor
  · rintro ⟨h, hraw, ⟨p, hp, ha⟩, rfl⟩
    exact ⟨⟨p, ⟨h, hraw, hp⟩, ha⟩, rfl⟩
  · rintro ⟨⟨p, ⟨h, hraw, hp⟩, ha⟩, rfl⟩
    exact ⟨h, hraw, ⟨p, hp, ha⟩, rfl⟩

theorem tried_inspect {has : α → Path → Prop} {look : Store → Handle → Except Store.Fault α}
    (hlook : ∀ h a, look s.store h = .ok a ↔ ∃ p, s.store.find? h = some p ∧ has a p) (call : String) (raw : UInt64) :
    s.Tried (fun a after => (∃ p, s.path? raw = some p ∧ has a p) ∧ after = { s with opened := true })
      (s.inspect call raw look) := by
  have hrequest : ∀ h a, (Report.ofExcept (fun fault => fault) (look s.store h)).outcome = .ok a ↔
      ∃ p, s.store.find? h = some p ∧ has a p := by
    intro h a
    rw [Report.outcome_ofExcept, mapError_eq_ok_iff, hlook]
  exact tried_look hrequest (.refused call) call raw

/-! ## Replies -/

section Replies

variable {c : Call} {ran : Ran α}

/-- A call that makes a path returns a new raw handle exactly if it brings a path and there is room for it. -/
theorem Tried.answered_made {ran : Ran Handle}
    (hran : s.Tried (fun h after => ∃ p t, c.Brings s.format.limit s.tree p ∧ s.store.Stored p h t ∧
      after = { s with store := t, opened := true }) ran) (hc : c.isMaking = true) :
    s.Answered c (replyMade ran) := by
  cases hran with
  | @done h after events hcan =>
    obtain ⟨p, t, hp, hi, rfl⟩ := hcan
    exact ⟨_, .made hp (fun hfull => hfull p h t hi) h.toRaw_ne_invalidRaw, .made hi⟩
  | refused hcan hs =>
    refine ⟨_, .notMade hc fun p hp q h t hi => ?_, hs⟩
    obtain ⟨u, hu⟩ := hi.of_other p
    exact hcan h _ ⟨p, u, hp, hu, rfl⟩

/-- A call with one cell gives what it has exactly if the cell is there. -/
theorem Tried.answered_cell {has : α → Prop} {content : α → Content} {reply : Bool → Cell α → Reply} {out : Cell α}
    (hran : s.Tried (fun a after => has a ∧ after = { s with opened := true }) ran) (hc : c.isReading = true)
    (hcells : c.cells = [out.map content])
    (hreply : ∀ success out, (reply success out).flag? = some success ∧ (reply success out).cells = [out.map content])
    (hgives : ∀ contents, c.Gives s.format.limit s.path? contents ↔ ∃ a, has a ∧ contents = [content a]) :
    s.Answered c (replyCell reply out ran) := by
  cases hran with
  | @done a after events hcan =>
    obtain ⟨ha, rfl⟩ := hcan
    cases out with
    | none =>
      refine ⟨_, .notGiven hc (.inl ?_) (hreply _ _).1 ((hreply _ _).2.trans hcells.symm), .opened⟩
      simp [hcells]
    | some old =>
      refine ⟨_, .given hc ?_ ((hgives _).mpr ⟨a, ha, rfl⟩) (hreply _ _).1 (hreply _ _).2, .opened⟩
      simp [hcells]
  | refused hcan hs =>
    refine ⟨_, .notGiven hc (.inr fun contents hcontents => ?_) (hreply _ _).1 ((hreply _ _).2.trans hcells.symm), hs⟩
    obtain ⟨a, ha, -⟩ := (hgives contents).mp hcontents
    exact hcan a _ ⟨ha, rfl⟩

/-- A call with two cells gives a sequence and its length exactly if both cells are there. -/
theorem Tried.answered_sequence {has : List α → Prop} {content : Option (List α) → Content}
    {reply : Bool → Cell (Option (List α)) → Cell Nat → Reply} {outValues : Cell (Option (List α))}
    {outCount : Cell Nat} {ran : Ran (List α)}
    (hran : s.Tried (fun a after => has a ∧ after = { s with opened := true }) ran) (hc : c.isReading = true)
    (hcells : c.cells = [outValues.map content, outCount.map .count])
    (hreply : ∀ success outValues outCount, (reply success outValues outCount).flag? = some success ∧
      (reply success outValues outCount).cells = [outValues.map content, outCount.map .count])
    (hgives : ∀ contents, c.Gives s.format.limit s.path? contents ↔
      ∃ a, has a ∧ contents = [content (some a), .count a.length]) :
    s.Answered c (s.replySequence reply outValues outCount ran) := by
  have hkept := fun events after (hs : s.Undergoes .nothing after)
      (hwhy : none ∈ c.cells ∨ ∀ contents, ¬ c.Gives s.format.limit s.path? contents) =>
    show s.Answered c ⟨reply false outValues outCount, after, events⟩ from
      ⟨_, .notGiven hc hwhy (hreply _ _ _).1 ((hreply _ _ _).2.trans hcells.symm), hs⟩
  cases outValues with
  | none => exact hkept _ _ .idle (.inl (by simp [hcells]))
  | some oldValues =>
    cases outCount with
    | none => exact hkept _ _ .idle (.inl (by simp [hcells]))
    | some oldCount =>
      cases hran with
      | @done a after events hcan =>
        obtain ⟨ha, rfl⟩ := hcan
        refine ⟨_, .given hc ?_ ((hgives _).mpr ⟨a, ha, rfl⟩) (hreply _ _ _).1 (hreply _ _ _).2, .opened⟩
        simp [hcells]
      | refused hcan hs =>
        refine hkept _ _ hs (.inr fun contents hcontents => ?_)
        obtain ⟨a, ha, -⟩ := (hgives contents).mp hcontents
        exact hcan a _ ⟨ha, rfl⟩

/-- A call that returns no more than a truth value. -/
theorem Tried.answered_flag {can : Unit → Session → Prop} {ran : Ran Unit} (hran : s.Tried can ran)
    (hdone : ∀ after, can () after → ∃ effect, s.basis.Answers c (.flag true) effect ∧ s.Undergoes effect after)
    (hrefused : (∀ after, ¬ can () after) → s.basis.Answers c (.flag false) .nothing) :
    s.Answered c (replyFlag ran) := by
  cases hran with
  | done hcan => exact hdone _ hcan
  | refused hcan hs => exact ⟨_, hrefused (hcan ()), hs⟩

theorem answered_onStore {ε : Type} {act : Act Store ε Handle} (hc : c.isMaking = true) (hclean : Act.Clean act)
    (hact : ∀ h t, act.result s.store = (.ok h, t) ↔
      ∃ p, c.Brings s.format.limit s.tree p ∧ s.store.Stored p h t) (tellFault : ε → Event) :
    s.Answered c (replyMade (s.perform tellFault (onStore act))) := by
  refine ((tried_onStore hclean tellFault).congr fun h after => ?_).answered_made hc
  simp only [hact]
  constructor
  · rintro ⟨t, ⟨p, hp, hi⟩, rfl⟩
    exact ⟨p, t, hp, hi, rfl⟩
  · rintro ⟨p, t, hp, hi, rfl⟩
    exact ⟨t, ⟨p, hp, hi⟩, rfl⟩

theorem answered_reject (hc : c.isMaking = true) (hnone : ∀ p, ¬ c.Brings s.format.limit s.tree p) (e : Event) :
    s.Answered c (replyMade (s.reject e)) :=
  (tried_reject (fun _ _ ⟨p, _, hp, _⟩ => hnone p hp) e).answered_made hc

end Replies

/-! ## Calls that make a path -/

theorem answered_create (s : Session) (id : UInt32) : s.Answered (.create id) (s.call (.create id)) := by
  refine answered_onStore rfl (Store.clean_insert _) (fun h t => ?_) _
  simp only [Store.insert_eq_ok_iff, Call.Brings, exists_eq_left]

theorem answered_deserialize (s : Session) (input : Input UInt8) :
    s.Answered (.deserialize input) (s.call (.deserialize input)) := by
  simp only [call]
  split
  · next hinput => exact answered_reject rfl (by simp [Call.Brings, hinput]) _
  · next bytes hinput =>
    have hbytes : ∀ p, (Transfer.decode s.format (some bytes.length) bytes).outcome = .ok p ↔
        Transfer.Holds s.format.limit bytes p := fun p => Transfer.outcome_decodeWhole_eq_ok_iff
    refine answered_onStore rfl (Transfer.clean_arrive _) (fun h t => ?_) _
    simp only [Transfer.arrive_eq_ok_iff, Call.Brings, hinput, Option.some.injEq, exists_eq_left']
    exact exists_congr fun p => and_congr_left fun _ => hbytes p

theorem answered_deserializeText (s : Session) (input : Input UInt8) :
    s.Answered (.deserializeText input) (s.call (.deserializeText input)) := by
  simp only [call]
  split
  · next hinput => exact answered_reject rfl (by simp [Call.Brings, hinput]) _
  · next letters hinput =>
    split
    · next htext => exact answered_reject rfl (by simp [Call.Brings, hinput, htext]) _
    · next text htext =>
      refine answered_onStore rfl (Transfer.clean_arrive _) (fun h t => ?_) _
      simp only [Transfer.arrive_eq_ok_iff, Transfer.outcome_ofText_eq_ok_iff, Call.Brings, hinput, htext,
        Option.some.injEq, exists_and_left, exists_eq_left']

theorem answered_deserializeFile (s : Session) (file : Option (List UInt8)) :
    s.Answered (.deserializeFile file) (s.call (.deserializeFile file)) := by
  simp only [call, withFileName]
  split
  · next hfile => exact answered_reject rfl (by simp [Call.Brings, hfile]) _
  · next name hfile =>
    refine answered_onStore rfl (Transfer.clean_arrive _) (fun h t => ?_) _
    simp only [Transfer.arrive_eq_ok_iff, Transfer.outcome_readFile_eq_ok_iff, Call.Brings, hfile, Option.some.injEq,
      exists_and_left, exists_eq_left']

/-! ## Calls that change a path or a file -/

theorem answered_destroy (s : Session) (raw : UInt64) : s.Answered (.destroy raw) (s.call (.destroy raw)) := by
  refine (tried_withHandle (fun h => tried_onStore (Store.clean_destroy h) _) _ raw).answered_flag ?_ ?_
  all_goals simp only [Store.destroy_eq_ok_iff]
  · rintro after ⟨h, hraw, t, hd, rfl⟩
    obtain ⟨p, hp⟩ := hd.live
    have hpath : s.path? raw = some p := path?_eq_some_iff.mpr ⟨h, hraw, hp⟩
    obtain rfl := Handle.ofRaw?_eq_some_iff.mp hraw
    exact ⟨_, .destroyed hpath, .destroyed hd⟩
  · intro hcan
    refine .notDestroyed (Option.eq_none_iff_forall_ne_some.mpr fun p hpath => ?_)
    obtain ⟨h, hraw, hp⟩ := path?_eq_some_iff.mp hpath
    obtain ⟨t, hd⟩ := Store.exists_destroyed hp
    exact hcan _ ⟨h, hraw, t, hd, rfl⟩

/-- An input has items exactly if as many are there as it is said to have. -/
theorem items?_eq_some_iff {input : Input α} {values : List α} :
    input.items? = some values ↔ input.length = (input.items?.getD []).length ∧ input.items?.getD [] = values := by
  cases input with
  | absent length => cases length <;> simp [Input.items?, Input.length]
  | present items => simp [Input.items?, Input.length]

theorem answered_set (s : Session) (axis : Axis) (raw : UInt64) (input : Input Coord) :
    s.Answered (.set axis raw input) (s.call (.set axis raw input)) := by
  refine (tried_withHandle (fun h => tried_onStore (Store.clean_set h axis _ _) _) _ raw).answered_flag ?_ ?_
  all_goals simp only [Store.set_eq_ok_iff]
  · rintro after ⟨h, hraw, t, ⟨hlength, hr⟩, rfl⟩
    obtain ⟨p, hp⟩ := hr.live
    have hpath : s.path? raw = some p := path?_eq_some_iff.mpr ⟨h, hraw, hp⟩
    obtain rfl := Handle.ofRaw?_eq_some_iff.mp hraw
    exact ⟨_, .set hpath (items?_eq_some_iff.mpr ⟨hlength, rfl⟩), .replaced hp hr⟩
  · intro hcan
    refine .notSet (Decidable.or_iff_not_imp_left.mpr fun hlive => ?_)
    obtain ⟨p, hpath⟩ := Option.ne_none_iff_exists'.mp hlive
    obtain ⟨h, hraw, hp⟩ := path?_eq_some_iff.mp hpath
    refine Option.eq_none_iff_forall_ne_some.mpr fun values hvalues => ?_
    exact hcan _ ⟨h, hraw, _, ⟨(items?_eq_some_iff.mp hvalues).1, .replace hp⟩, rfl⟩

theorem answered_serializeFile (s : Session) (raw : UInt64) (file : Option (List UInt8)) :
    s.Answered (.serializeFile raw file) (s.call (.serializeFile raw file)) := by
  refine (tried_withFileName (fun name => tried_withHandle (fun h =>
    tried_onTree (Transfer.clean_serializeFile s.format s.store h name) _) _ raw) _ file).answered_flag ?_ ?_
  all_goals simp only [Transfer.serializeFile_eq_ok_iff]
  · rintro after ⟨name, hname, h, hraw, tree, ⟨p, hp, bytes, hbytes, hwrite⟩, rfl⟩
    exact ⟨_, .written hname (path?_eq_some_iff.mpr ⟨h, hraw, hp⟩) hbytes hwrite, .wrote⟩
  · intro hcan
    refine .notWritten fun name p bytes after hname hpath hbytes hwrite => ?_
    obtain ⟨h, hraw, hp⟩ := path?_eq_some_iff.mp hpath
    exact hcan _ ⟨name, hname, h, hraw, after, ⟨p, hp, bytes, hbytes, hwrite⟩, rfl⟩

/-! ## Calls that give something -/

theorem answered_getId (s : Session) (raw : UInt64) (out : Cell UInt32) :
    s.Answered (.getId raw out) (s.call (.getId raw out)) := by
  refine (tried_inspect (fun h id => Store.id_eq_ok_iff) _ raw).answered_cell rfl rfl (fun _ _ => ⟨rfl, rfl⟩) ?_
  intro contents
  simp only [Call.Gives]
  grind

theorem answered_getCount (s : Session) (axis : Axis) (raw : UInt64) (out : Cell Nat) :
    s.Answered (.getCount axis raw out) (s.call (.getCount axis raw out)) := by
  refine (tried_inspect (fun h count => Store.count_eq_ok_iff) _ raw).answered_cell rfl rfl (fun _ _ => ⟨rfl, rfl⟩) ?_
  intro contents
  simp only [Call.Gives]
  grind

theorem answered_getItem (s : Session) (axis : Axis) (raw : UInt64) (index : Nat) (out : Cell Coord) :
    s.Answered (.getItem axis raw index out) (s.call (.getItem axis raw index out)) := by
  refine (tried_inspect (fun h c => Store.item_eq_ok_iff) _ raw).answered_cell rfl rfl (fun _ _ => ⟨rfl, rfl⟩) ?_
  intro contents
  simp only [Call.Gives]
  grind

theorem answered_getCoords (s : Session) (axis : Axis) (raw : UInt64) (outValues : Cell (Option (List Coord)))
    (outCount : Cell Nat) :
    s.Answered (.getCoords axis raw outValues outCount) (s.call (.getCoords axis raw outValues outCount)) := by
  refine (tried_inspect (fun h values => Store.coords_eq_ok_iff) _ raw).answered_sequence rfl rfl
    (fun _ _ _ => ⟨rfl, rfl⟩) ?_
  intro contents
  simp only [Call.Gives]
  grind

theorem answered_serialize (s : Session) (raw : UInt64) (outBytes : Cell (Option (List UInt8))) (outLength : Cell Nat) :
    s.Answered (.serialize raw outBytes outLength) (s.call (.serialize raw outBytes outLength)) := by
  refine (tried_look (fun h bytes => Transfer.outcome_serialize_eq_ok_iff) _ _ raw).answered_sequence rfl rfl
    (fun _ _ _ => ⟨rfl, rfl⟩) ?_
  intro contents
  constructor
  · rintro ⟨p, bytes, hpath, hbytes, rfl⟩
    exact ⟨bytes, ⟨p, hpath, hbytes⟩, rfl⟩
  · rintro ⟨bytes, ⟨p, hpath, hbytes⟩, rfl⟩
    exact ⟨p, bytes, hpath, hbytes, rfl⟩

theorem answered_serializeText (s : Session) (raw : UInt64) (outText : Cell (Option (List UInt8)))
    (outLength : Cell Nat) :
    s.Answered (.serializeText raw outText outLength) (s.call (.serializeText raw outText outLength)) := by
  -- the letters of the text are the symbols, byte for byte
  have hletters := Text.Base64Url.toUtf8_encode
  have hrequest : ∀ h letters, (Transfer.serializeText s.format s.store h >>= fun text =>
      (pure (Text.toUtf8 text.toList) : Report Transfer.Fault (List UInt8))).outcome = .ok letters ↔
      ∃ p, s.store.find? h = some p ∧ ∃ bytes, Transfer.Holds s.format.limit bytes p ∧
        Text.Base64Url.encode bytes = letters := by
    intro h letters
    simp only [Report.outcome_bind, bind_eq_ok_iff, Transfer.outcome_serializeText_eq_ok_iff, Report.outcome_pure,
      Except.ok.injEq]
    constructor
    · rintro ⟨_, ⟨p, hp, bytes, hbytes, rfl⟩, rfl⟩
      exact ⟨p, hp, bytes, hbytes, (hletters bytes).symm⟩
    · rintro ⟨p, hp, bytes, hbytes, rfl⟩
      exact ⟨_, ⟨p, hp, bytes, hbytes, rfl⟩, hletters bytes⟩
  refine (tried_look hrequest _ _ raw).answered_sequence rfl rfl (fun _ _ _ => ⟨rfl, rfl⟩) ?_
  intro contents
  constructor
  · rintro ⟨p, bytes, hpath, hbytes, rfl⟩
    exact ⟨_, ⟨p, hpath, bytes, hbytes, rfl⟩, rfl⟩
  · rintro ⟨_, ⟨p, hpath, bytes, hbytes, rfl⟩, rfl⟩
    exact ⟨p, bytes, hpath, hbytes, rfl⟩

/-! ## Every call -/

/-- **Calls keep to the list**: whatever the session and the call, the reply is one of the listed answers and the
session undergoes its effect. -/
theorem call_answered (s : Session) (c : Call) : s.Answered c (s.call c) := by
  cases c with
  | create id => exact s.answered_create id
  | destroy raw => exact s.answered_destroy raw
  | set axis raw input => exact s.answered_set axis raw input
  | getId raw out => exact s.answered_getId raw out
  | getCount axis raw out => exact s.answered_getCount axis raw out
  | getItem axis raw index out => exact s.answered_getItem axis raw index out
  | getCoords axis raw outValues outCount => exact s.answered_getCoords axis raw outValues outCount
  | serialize raw outBytes outLength => exact s.answered_serialize raw outBytes outLength
  | serializeText raw outText outLength => exact s.answered_serializeText raw outText outLength
  | serializeFile raw file => exact s.answered_serializeFile raw file
  | deserialize input => exact s.answered_deserialize input
  | deserializeText input => exact s.answered_deserializeText input
  | deserializeFile file => exact s.answered_deserializeFile file
  | liveCount => exact ⟨_, .live, .opened⟩
  | freeNothing => exact ⟨_, .nothing, .idle⟩

end Session

/-! ## Failures -/

variable {b : Basis} {c : Call} {r : Reply} {effect : Effect}

theorem Call.cells_of_isMaking (hc : c.isMaking = true) : c.cells = [] := by
  cases c with
  | create id | deserialize input | deserializeText input | deserializeFile file => rfl
  | _ => cases hc

/-- A call has as much to give as it has cells. -/
theorem Call.Gives.length_eq {limit : UInt64} {path? : UInt64 → Option Path} {contents : List Content}
    (hgives : c.Gives limit path? contents) : contents.length = c.cells.length := by
  cases c with
  | getItem axis raw index out =>
    obtain ⟨_, _, _, _, rfl⟩ := hgives
    rfl
  | serialize raw outBytes outLength | serializeText raw outText outLength =>
    obtain ⟨_, _, _, _, rfl⟩ := hgives
    rfl
  | getId raw out | getCount axis raw out | getCoords axis raw outValues outCount =>
    obtain ⟨_, _, rfl⟩ := hgives
    rfl
  | _ =>
    obtain rfl := hgives
    rfl

/-- A call that returns `false` or zero changes nothing and leaves its cells. -/
theorem Basis.Answers.of_returnsZero (ha : b.Answers c r effect) (hr : r.ReturnsZero) :
    effect = .nothing ∧ r.cells = c.cells := by
  cases ha with
  | made hp hroom hraw =>
    rcases hr with hflag | hmade | hlive
    · cases hflag
    · exact absurd (Reply.made.inj hmade) hraw
    · cases hlive
  | notMade hc hfull => exact ⟨rfl, (Call.cells_of_isMaking hc).symm⟩
  | destroyed hpath | set hpath hvalues | written hname hpath hbytes hwrite =>
    rcases hr with hflag | hmade | hlive
    · cases hflag
    · cases hmade
    · cases hlive
  | notDestroyed hpath | notSet hwhy | notWritten hwhy | live | nothing => exact ⟨rfl, rfl⟩
  | given hc hcells hgives hflag hreply =>
    rcases hr with hfalse | rfl | rfl
    · rw [hflag] at hfalse
      cases hfalse
    · cases hflag
    · cases hflag
  | notGiven hc hwhy hflag hreply => exact ⟨rfl, hreply⟩

/-- A call that returns `true` was given all its cells and has filled them. -/
theorem Basis.Answers.of_returnsTrue (ha : b.Answers c r effect) (hr : r.flag? = some true) :
    (∀ cell ∈ c.cells, cell ≠ none) ∧ ∃ contents, c.Gives b.limit b.path? contents ∧ r.cells = contents.map some := by
  cases ha with
  | made hp hroom hraw | notMade hc hfull | live | nothing => cases hr
  | destroyed hpath | set hpath hvalues | written hname hpath hbytes hwrite =>
    exact ⟨fun cell hcell => absurd hcell List.not_mem_nil, [], rfl, rfl⟩
  | notDestroyed hpath | notSet hwhy | notWritten hwhy => cases hr
  | given hc hcells hgives hflag hreply => exact ⟨hcells, _, hgives, hreply⟩
  | notGiven hc hwhy hflag hreply =>
    rw [hflag] at hr
    cases hr

/-- **Failures are clean**: a call that returns `false` or zero has changed neither the store nor a file nor a cell, and
one that returns `true` was given all its cells and has put into each of them what it has to give. -/
theorem calls_fail_cleanly (s : Session) (c : Call) :
    ((s.call c).reply.ReturnsZero →
      (s.call c).session.store = s.store ∧ (s.call c).session.tree = s.tree ∧ (s.call c).reply.cells = c.cells) ∧
    ((s.call c).reply.flag? = some true →
      (∀ cell ∈ c.cells, cell ≠ none) ∧
      ∃ contents, c.Gives s.format.limit s.path? contents ∧ contents.length = c.cells.length ∧
        (s.call c).reply.cells = contents.map some) := by
  obtain ⟨effect, ha, hs⟩ := s.call_answered c
  constructor
  · intro hzero
    obtain ⟨rfl, hcells⟩ := ha.of_returnsZero hzero
    generalize (s.call c).session = after at hs
    cases hs with
    | idle => exact ⟨rfl, rfl, hcells⟩
    | opened => exact ⟨rfl, rfl, hcells⟩
  · intro htrue
    obtain ⟨hgiven, contents, hgives, hcells⟩ := ha.of_returnsTrue htrue
    exact ⟨hgiven, contents, hgives, hgives.length_eq, hcells⟩

/-- A path with one coordinate and the limit zero: the path is not written, and the file that was to hold it keeps its
two bytes. A path is asked for its number without a cell, and then with one. -/
theorem calls_fail_cleanly_at_file_and_cell :
    let tree := Files.Tree.ofFiles [("p", [1, 2])]
    let s := (((Session.start tree (some "0")).call (.create 7)).session.call
      (.set .x 4294967296 (.present [⟨0⟩]))).session
    let writing := s.call (.serializeFile 4294967296 (some [112]))
    let missing := s.call (.getId 4294967296 none)
    let given := s.call (.getId 4294967296 (some 0))
    (writing.reply.ReturnsZero ∧ writing.session.store = s.store ∧ writing.session.tree = s.tree) ∧
    (missing.reply.ReturnsZero ∧
      missing.session.store = s.store ∧ missing.session.tree = s.tree ∧ missing.reply.cells = [none]) ∧
    given.reply.flag? = some true ∧ ∃ contents, (Call.getId 4294967296 (some 0)).Gives s.format.limit s.path? contents ∧
      contents.length = 1 ∧ given.reply.cells = contents.map some := by
  intro tree s writing missing given
  have hwriting : writing.reply.ReturnsZero := .inl (by decide +kernel)
  have hmissing : missing.reply.ReturnsZero := .inl (by decide)
  have hgiven : given.reply.flag? = some true := by decide
  obtain ⟨hstore, htree, -⟩ := (calls_fail_cleanly s (.serializeFile 4294967296 (some [112]))).1 hwriting
  have hleft := (calls_fail_cleanly s (.getId 4294967296 none)).1 hmissing
  obtain ⟨-, hcontents⟩ := (calls_fail_cleanly s (.getId 4294967296 (some 0))).2 hgiven
  exact ⟨⟨hwriting, hstore, htree⟩, ⟨hmissing, hleft⟩, hgiven, hcontents⟩

end Polypath.Calls
