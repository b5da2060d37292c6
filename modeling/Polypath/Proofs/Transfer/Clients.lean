import Mathlib.Logic.Function.Basic
import Polypath.Proofs.Transfer.Errands

/-!
# Clients of one store do not notice each other

Several clients share a store and a format. A client has no handles but those that its own calls were given, so its tasks
name a path by the number of the call that was to make it. `Scene.play` carries out the tasks of all clients in the
order in which they come and tells what each client sees: everything but the handles, which depend on what the others
do, since all take their slots from one store.

The main statement is `clients_do_not_interfere`: a client sees the same as if it were alone. Its proof goes through the
client's `View`, what its calls stand for now. What a client sees and what becomes of its view depend on its view alone
(`Acted.view_act`), and the tasks of another client do not touch it (`Acted.view_of_ne`), as long as every handle belongs
to one call of one client and the next handle of a slot is always a new one (`Sound`).
-/

namespace Polypath.Clients

open Journal Outcome Wire Transfer

/-! ## Tasks -/

/-- A call that is to make a path. -/
inductive Making where
  | create (id : UInt32)
  | deserialize (reported : Option Nat) (bytes : List UInt8)
  | deserializeText (text : String)
deriving DecidableEq, Repr

/-- A call about a path that was made. -/
inductive Use where
  | destroy
  | set (axis : Axis) (values : List Coord) (declared : Nat)
  | id
  | count (axis : Axis)
  | coords (axis : Axis)
  | item (axis : Axis) (index : Nat)
  | serialize
  | serializeText
deriving DecidableEq, Repr

/-- What a client does next: it makes a path, or uses what its `number`-th making call was given. -/
inductive Task where
  | make (m : Making)
  | use (number : Nat) (u : Use)
deriving DecidableEq, Repr

/-- The call as an errand. -/
def Making.errand (f : Format) : Making → Errand
  | .create id => .request (.create id)
  | .deserialize reported bytes => .deserialize f reported bytes
  | .deserializeText text => .deserializeText f text

/-- The call as an errand about a handle. -/
def Use.errand (f : Format) (h : Handle) : Use → Errand
  | .destroy => .request (.destroy h)
  | .set axis values declared => .request (.set h axis values declared)
  | .id => .request (.id h)
  | .count axis => .request (.count h axis)
  | .coords axis => .request (.coords h axis)
  | .item axis index => .request (.item h axis index)
  | .serialize => .serialize f h
  | .serializeText => .serializeText f h

/-! ## Scenes -/

/-- A fault without the handle that it may name; only a handle that is not live is named. -/
def nameless : Transfer.Fault → Option Transfer.Fault
  | .store (.invalidHandle _) => none
  | fault => some fault

/-- What a client sees of a call. -/
inductive Sight where
  /-- A path was made, under whatever handle. -/
  | made
  /-- The call yielded this. -/
  | yielded (y : Yield)
  /-- The call failed; `none` stands for a handle that is not live. -/
  | failed (fault : Option Transfer.Fault)
  /-- The making call has failed or has not been made, so that there is no handle to call with. -/
  | noHandle
deriving DecidableEq, Repr

/-- What a client sees when all slots are in use or retired. -/
def Sight.exhausted : Sight := .failed (some (.store .exhausted))

/-- A store and what the making calls of each client were given, in order; `none` for a call that failed. -/
structure Scene (Client : Type) where
  store : Store
  made : Client → List (Option Handle)

namespace Scene

variable {Client : Type} [DecidableEq Client]

/-- No calls yet. -/
def start : Scene Client := ⟨.empty, fun _ => []⟩

/-- The handle that a making call of a client was given. -/
def handle? (σ : Scene Client) (c : Client) (number : Nat) : Option Handle := (σ.made c)[number]?.join

/-- The scene with another store, after a making call of a client. -/
def record (σ : Scene Client) (store : Store) (c : Client) (given : Option Handle) : Scene Client :=
  ⟨store, Function.update σ.made c (σ.made c ++ [given])⟩

/-- A client carries out a task. -/
def act (f : Format) (σ : Scene Client) (c : Client) : Task → Sight × Scene Client
  | .make m =>
    match carryOut σ.store (m.errand f) with
    | (.ok y, t) => (.made, σ.record t c y.handles.head?)
    | (.error e, t) => (.failed (nameless e), σ.record t c none)
  | .use number u =>
    match σ.handle? c number with
    | none => (.noHandle, σ)
    | some h =>
      match carryOut σ.store (u.errand f h) with
      | (.ok y, t) => (.yielded y, { σ with store := t })
      | (.error e, t) => (.failed (nameless e), { σ with store := t })

/-- What the clients see when they carry out their tasks in the given order. -/
def play (f : Format) : Scene Client → List (Client × Task) → List (Client × Sight)
  | _, [] => []
  | σ, (c, task) :: rest => (c, (σ.act f c task).1) :: play f (σ.act f c task).2 rest

end Scene

/-- Of tasks or of sights, those of one client, in the order in which they come. -/
def only {Client α : Type} [DecidableEq Client] (c : Client) (entries : List (Client × α)) : List (Client × α) :=
  entries.filter fun entry => entry.1 = c

/-! ## Views -/

/-- What the making calls of a client stand for: nothing if a call failed, and else what is found under its handle. -/
abbrev View := List (Option (Option Path))

/-- The path that a making call is to store. -/
def Making.arrival (f : Format) : Making → Except Transfer.Fault Path
  | .create id => .ok (.empty id)
  | .deserialize reported bytes => (Transfer.decode f reported bytes).outcome
  | .deserializeText text => (Transfer.ofText f text).outcome

/-- What a use of a path yields, and what is found under its handle afterwards. -/
def Use.onPath (f : Format) (p : Path) : Use → Except Transfer.Fault (Yield × Option Path)
  | .destroy => .ok (.answer .done, none)
  | .set axis values declared =>
    if declared = values.length then .ok (.answer .done, some (p.replace axis values))
    else .error (.store (.lengthMismatch axis declared values.length))
  | .id => .ok (.answer (.id p.id), some p)
  | .count axis => .ok (.answer (.count (p.coords axis).length), some p)
  | .coords axis => .ok (.answer (.coords (p.coords axis)), some p)
  | .item axis index =>
    match (p.coords axis)[index]? with
    | some c => .ok (.answer (.coord c), some p)
    | none => .error (.store (.indexOutOfBounds axis index (p.coords axis).length))
  | .serialize => return (.buffer (← (Transfer.encode f p).outcome), some p)
  | .serializeText => return (.text (← (Transfer.toText f p).outcome), some p)

namespace View

/-- What a client with a given view sees of a task, and its view afterwards, if there is room for all paths. -/
def act (f : Format) (v : View) : Task → Sight × View
  | .make m =>
    match m.arrival f with
    | .ok p => (.made, v ++ [some (some p)])
    | .error e => (.failed (nameless e), v ++ [none])
  | .use number u =>
    match v[number]?.join with
    | none => (.noHandle, v)
    | some none => (.failed none, v)
    | some (some p) =>
      match u.onPath f p with
      | .ok (y, q) => (.yielded y, v.set number (some q))
      | .error e => (.failed (nameless e), v)

/-- What a client with a given view sees of its tasks. -/
def play (f : Format) : View → List Task → List Sight
  | _, [] => []
  | v, task :: rest => (v.act f task).1 :: play f (v.act f task).2 rest

end View

/-! ## Errands through the look-up -/

section Errands

variable {s t : Store} {h : Handle} {p : Path}

/-- A change that concerns one handle: it has `q` now. No other handle notices, and none is given out. -/
structure Touched (s : Store) (h : Handle) (q : Option Path) (t : Store) : Prop where
  wellFormed : t.WellFormed
  find?_eq : ∀ k, t.find? k = if k = h then q else s.find? k
  upcoming_eq : ∀ i, t.upcoming i = s.upcoming i

theorem touched_self (hs : s.WellFormed) (hp : s.find? h = some p) : Touched s h (some p) s where
  wellFormed := hs
  find?_eq k := by
    split
    · next hk => rw [hk, hp]
    · rfl
  upcoming_eq _ := rfl

theorem touched_of_destroyed (hs : s.WellFormed) (hd : s.Destroyed h t) : Touched s h none t where
  wellFormed := hd.wellFormed hs
  find?_eq := hd.find?_eq
  upcoming_eq := hd.upcoming_eq hs

theorem touched_of_replaced {axis : Axis} {values : List Coord} (hs : s.WellFormed) (hp : s.find? h = some p)
    (hr : s.Replaced h axis values t) : Touched s h (some (p.replace axis values)) t where
  wellFormed := hr.wellFormed hs
  find?_eq := hr.find?_eq hp
  upcoming_eq := hr.upcoming_eq hs

/-- The outcome of a use told by its path and by its store: the same yield, or the same fault, with the store as it
was. -/
inductive Carried (s : Store) (h : Handle) :
    Except Transfer.Fault (Yield × Option Path) → Except Transfer.Fault Yield × Store → Prop
  | done {y : Yield} {q : Option Path} {t : Store} : Touched s h q t → Carried s h (.ok (y, q)) (.ok y, t)
  | failed {e : Transfer.Fault} : Carried s h (.error e) (.error e, s)

/-- What is told of a path leaves the store as it is. -/
theorem carried_of_told {α : Type} (hs : s.WellFormed) (hp : s.find? h = some p) (told : Except Transfer.Fault α)
    (yield : α → Yield) :
    Carried s h (told >>= fun a => .ok (yield a, some p)) (Act.chain (told, s) fun a t => (.ok (yield a), t)) := by
  cases told with
  | ok a => exact .done (touched_self hs hp)
  | error e => exact .failed

/-- **A use of a live handle** depends on its path alone, and concerns no other handle. -/
theorem carryOut_use (hs : s.WellFormed) (hp : s.find? h = some p) (f : Format) (u : Use) :
    Carried s h (u.onPath f p) (carryOut s (u.errand f h)) := by
  have hget : s.get h = .ok p := Store.get_eq_ok_iff.mpr hp
  cases u with
  | destroy =>
    obtain ⟨t, hd⟩ := Store.exists_destroyed hp
    simp only [Use.onPath, Use.errand, carryOut, Errand.act, Store.Request.act, Act.result_bind, Act.result_adapt,
      Store.destroy_eq_ok_iff.mpr hd]
    exact .done (touched_of_destroyed hs hd)
  | set axis values declared =>
    have hr : s.Replaced h axis values _ := .replace hp
    by_cases hd : declared = values.length
    · simp only [Use.onPath, Use.errand, carryOut, Errand.act, Store.Request.act, Act.result_bind, Act.result_adapt,
        Store.set_eq_ok_iff.mpr ⟨hd, hr⟩, if_pos hd]
      exact .done (touched_of_replaced hs hp hr)
    · simp only [Use.onPath, Use.errand, carryOut, Errand.act, Store.Request.act, Store.set, Act.result_bind,
        Act.result_adapt, Act.result_ask, hget, Act.chain_ok, if_neg hd]
      exact .failed
  | id =>
    simp only [Use.onPath, Use.errand, carryOut, Errand.act, Store.Request.act, Act.result_bind, Act.result_adapt,
      Act.result_ask, Store.id, hget]
    exact .done (touched_self hs hp)
  | count axis =>
    simp only [Use.onPath, Use.errand, carryOut, Errand.act, Store.Request.act, Act.result_bind, Act.result_adapt,
      Act.result_ask, Store.count, Store.coords, hget]
    exact .done (touched_self hs hp)
  | coords axis =>
    simp only [Use.onPath, Use.errand, carryOut, Errand.act, Store.Request.act, Act.result_bind, Act.result_adapt,
      Act.result_ask, Store.coords, hget]
    exact .done (touched_self hs hp)
  | item axis index =>
    simp only [Use.onPath, Use.errand, carryOut, Errand.act, Store.Request.act, Act.result_bind, Act.result_adapt,
      Act.result_ask, Store.item, Store.coords, hget, ok_bind, pure_eq_ok]
    cases (p.coords axis)[index]? with
    | some c => exact .done (touched_self hs hp)
    | none => exact .failed
  | serialize =>
    simp only [Use.onPath, Use.errand, carryOut, Errand.act, Act.result_bind, Act.result_look, serialize,
      Report.outcome_bind, outcome_fetch, hget]
    exact carried_of_told hs hp _ .buffer
  | serializeText =>
    simp only [Use.onPath, Use.errand, carryOut, Errand.act, Act.result_bind, Act.result_look, serializeText,
      Report.outcome_bind, outcome_fetch, hget]
    exact carried_of_told hs hp _ .text

/-- A making call stores the path that arrives. -/
theorem carryOut_making (s : Store) (f : Format) (m : Making) :
    carryOut s (m.errand f) = Act.chain (m.arrival f, s) fun p s =>
      Act.chain ((accept p).result s) fun h t => (.ok (.answer (.handle h)), t) := by
  cases m with
  | create id =>
    simp only [Making.arrival, Making.errand, carryOut, Errand.act, Store.Request.act, Store.create, Act.result_bind,
      Act.result_adapt, accept, Act.chain_ok]
    rcases (Store.insert (.empty id)).result s with ⟨fault | h, t⟩ <;> rfl
  | deserialize reported bytes =>
    simp only [Making.arrival, Making.errand, carryOut, Errand.act, deserialize, Act.result_bind, Act.result_ofReport]
    cases (Transfer.decode f reported bytes).outcome <;> rfl
  | deserializeText text =>
    simp only [Making.arrival, Making.errand, carryOut, Errand.act, deserializeText, Act.result_bind,
      Act.result_ofReport]
    cases (Transfer.ofText f text).outcome <;> rfl

end Errands

namespace Scene

variable {Client : Type} {σ : Scene Client} {c d : Client} {number : Nat} {t : Store} {h k : Handle} {p : Path}
  {q : Option Path}

/-! ## The view of a client -/

/-- What the making calls of a client stand for now. -/
def view (σ : Scene Client) (c : Client) : View := (σ.made c).map (Option.map σ.store.find?)

theorem view_getElem?_join (σ : Scene Client) (c : Client) (number : Nat) :
    (σ.view c)[number]?.join = (σ.handle? c number).map σ.store.find? := by
  unfold view handle?
  rw [List.getElem?_map]
  cases (σ.made c)[number]? <;> rfl

theorem made_of_handle? (hn : σ.handle? c number = some h) : (σ.made c)[number]? = some (some h) := by
  rwa [handle?, Option.join_eq_some_iff] at hn

/-- A change of the store that no handle of a client notices does not touch its view. -/
theorem view_eq_of_find?_eq (heq : ∀ number k, σ.handle? c number = some k → t.find? k = σ.store.find? k) :
    ({ σ with store := t } : Scene Client).view c = σ.view c := by
  apply List.map_congr_left
  intro given hmem
  cases given with
  | none => rfl
  | some k =>
    obtain ⟨number, hn⟩ := List.mem_iff_getElem?.mp hmem
    exact congrArg some (heq number k (by rw [handle?, hn]; rfl))

/-! ## Sound scenes -/

/-- The store is well formed, no slot comes back to a handle that was given, and every handle was given to one call. -/
structure Sound (σ : Scene Client) : Prop where
  wellFormed : σ.store.WellFormed
  spent : ∀ c number h, σ.handle? c number = some h → h.generation.value.toNat < σ.store.upcoming h.index
  owner : ∀ c d number number' h, σ.handle? c number = some h → σ.handle? d number' = some h →
    c = d ∧ number = number'

theorem sound_start : Sound (start : Scene Client) where
  wellFormed := Store.wellFormed_empty
  spent c number h hn := by simp [start, handle?] at hn
  owner c d number number' h hn := by simp [start, handle?] at hn

/-- Changing what one handle has keeps a scene sound. -/
theorem Sound.touched (hσ : σ.Sound) (ht : Touched σ.store h q t) : ({ σ with store := t } : Scene Client).Sound where
  wellFormed := ht.wellFormed
  spent c number k hk := by
    rw [ht.upcoming_eq]
    exact hσ.spent c number k hk
  owner := hσ.owner

/-- The client whose handle it is sees the change at one place. -/
theorem Sound.view_touched (hσ : σ.Sound) (hn : σ.handle? c number = some h) (ht : Touched σ.store h q t) :
    ({ σ with store := t } : Scene Client).view c = (σ.view c).set number (some q) := by
  apply List.ext_getElem?
  intro i
  have hat := made_of_handle? hn
  obtain ⟨hlt, -⟩ := List.getElem?_eq_some_iff.mp hat
  by_cases hi : i = number
  · subst hi
    rw [List.getElem?_set_self (by simpa [view] using hlt)]
    simp only [view, List.getElem?_map, hat, Option.map_some, ht.find?_eq, if_pos]
  · rw [List.getElem?_set_ne (Ne.symm hi)]
    simp only [view, List.getElem?_map]
    cases hgiven : (σ.made c)[i]? with
    | none => rfl
    | some given =>
      cases given with
      | none => rfl
      | some k =>
        have hk : σ.handle? c i = some k := by rw [handle?, hgiven]; rfl
        have hne : k ≠ h := by
          rintro rfl
          exact hi (hσ.owner c c i number k hk hn).2
        simp [ht.find?_eq, hne]

/-- The other clients do not see it. -/
theorem Sound.view_touched_of_ne (hσ : σ.Sound) (hne : c ≠ d) (hn : σ.handle? d number = some h)
    (ht : Touched σ.store h q t) : ({ σ with store := t } : Scene Client).view c = σ.view c := by
  apply view_eq_of_find?_eq
  intro number' k hk
  rw [ht.find?_eq, if_neg]
  rintro rfl
  exact hne (hσ.owner c d number' number k hk hn).1

/-- A handle that was given is not given again. -/
theorem Sound.ne_of_stored (hσ : σ.Sound) (hi : σ.store.Stored p h t) (hk : σ.handle? c number = some k) : k ≠ h := by
  rintro rfl
  exact absurd hi.generation_eq (Nat.ne_of_lt (hσ.spent c number k hk))

/-- No client sees a new path among those that it has. -/
theorem Sound.view_stored (hσ : σ.Sound) (hi : σ.store.Stored p h t) (c : Client) :
    ({ σ with store := t } : Scene Client).view c = σ.view c := by
  apply view_eq_of_find?_eq
  intro number k hk
  rw [hi.find?_eq hσ.wellFormed, if_neg (hσ.ne_of_stored hi hk)]

/-! ## Making calls -/

variable [DecidableEq Client]

theorem view_record_self (σ : Scene Client) (t : Store) (c : Client) (given : Option Handle) :
    (σ.record t c given).view c = ({ σ with store := t } : Scene Client).view c ++ [given.map t.find?] := by
  simp [view, record]

theorem view_record_of_ne (hne : c ≠ d) (σ : Scene Client) (t : Store) (given : Option Handle) :
    (σ.record t d given).view c = ({ σ with store := t } : Scene Client).view c := by
  simp [view, record, hne]

/-- The call that was made last was given what it was given, and all others keep what they have. -/
theorem handle?_record (σ : Scene Client) (t : Store) (c d : Client) (given : Option Handle) (number : Nat) :
    (σ.record t c given).handle? d number =
      if d = c ∧ number = (σ.made c).length then given else σ.handle? d number := by
  by_cases hd : d = c
  · subst hd
    simp only [handle?, record, Function.update_self, List.getElem?_append, true_and]
    rcases Nat.lt_trichotomy number (σ.made d).length with hlt | heq | hgt
    · rw [if_pos hlt, if_neg (Nat.ne_of_lt hlt)]
    · simp [heq]
    · rw [if_neg (Nat.lt_asymm hgt), if_neg (Nat.ne_of_gt hgt), List.getElem?_eq_none (Nat.le_of_lt hgt),
        List.getElem?_eq_none (Nat.le_sub_of_add_le' hgt)]
  · simp [handle?, record, hd]

/-- A call that makes no path keeps a scene sound. -/
theorem Sound.record_none (hσ : σ.Sound) (c : Client) : (σ.record σ.store c none).Sound where
  wellFormed := hσ.wellFormed
  spent d number k hk := by
    rw [handle?_record] at hk
    split at hk
    · cases hk
    · exact hσ.spent d number k hk
  owner d d' number number' k hk hk' := by
    rw [handle?_record] at hk hk'
    split at hk
    · cases hk
    · split at hk'
      · cases hk'
      · exact hσ.owner d d' number number' k hk hk'

/-- A call that makes a path keeps a scene sound. -/
theorem Sound.record_stored (hσ : σ.Sound) (c : Client) (hi : σ.store.Stored p h t) :
    (σ.record t c (some h)).Sound where
  wellFormed := hi.wellFormed hσ.wellFormed
  spent d number k hk := by
    simp only [record, hi.upcoming_eq hσ.wellFormed]
    rw [handle?_record] at hk
    split at hk
    · cases hk
      rw [if_pos rfl, hi.generation_eq]
      exact Nat.lt_succ_self _
    · have hlt := hσ.spent d number k hk
      split <;> omega
  owner d d' number number' k hk hk' := by
    rw [handle?_record] at hk hk'
    split at hk
    · next hd =>
      cases hk
      split at hk'
      · next hd' => exact ⟨hd.1.trans hd'.1.symm, hd.2.trans hd'.2.symm⟩
      · exact absurd rfl (hσ.ne_of_stored hi hk')
    · split at hk'
      · cases hk'
        exact absurd rfl (hσ.ne_of_stored hi hk)
      · exact hσ.owner d d' number number' k hk hk'

/-! ## One task -/

/-- All that can happen when a client carries out a task. -/
inductive Acted (f : Format) (σ : Scene Client) (c : Client) : Task → Sight → Scene Client → Prop
  | made {m : Making} {p : Path} {h : Handle} {t : Store} :
      m.arrival f = .ok p → σ.store.Stored p h t → Acted f σ c (.make m) .made (σ.record t c (some h))
  | full {m : Making} : Acted f σ c (.make m) .exhausted (σ.record σ.store c none)
  | notArrived {m : Making} {e : Transfer.Fault} :
      m.arrival f = .error e → Acted f σ c (.make m) (.failed (nameless e)) (σ.record σ.store c none)
  | noHandle {number : Nat} {u : Use} :
      σ.handle? c number = none → Acted f σ c (.use number u) .noHandle σ
  | dead {number : Nat} {u : Use} {h : Handle} :
      σ.handle? c number = some h → σ.store.find? h = none → Acted f σ c (.use number u) (.failed none) σ
  | used {number : Nat} {u : Use} {h : Handle} {p : Path} {y : Yield} {q : Option Path} {t : Store} :
      σ.handle? c number = some h → σ.store.find? h = some p → u.onPath f p = .ok (y, q) →
      Touched σ.store h q t → Acted f σ c (.use number u) (.yielded y) { σ with store := t }
  | refused {number : Nat} {u : Use} {h : Handle} {p : Path} {e : Transfer.Fault} :
      σ.handle? c number = some h → σ.store.find? h = some p → u.onPath f p = .error e →
      Acted f σ c (.use number u) (.failed (nameless e)) σ

theorem Use.subject?_errand (f : Format) (h : Handle) (u : Use) : (u.errand f h).subject? = some h := by
  cases u <;> rfl

theorem Sound.acted (hσ : σ.Sound) (f : Format) (c : Client) (task : Task) :
    Acted f σ c task (σ.act f c task).1 (σ.act f c task).2 := by
  cases task with
  | make m =>
    simp only [act, carryOut_making]
    cases hm : m.arrival f with
    | error e => exact .notArrived hm
    | ok p =>
      rcases hi : (Store.insert p).result σ.store with ⟨fault | h, t⟩
      · cases Store.insert_eq_exhausted hi
        cases Store.clean_insert p _ _ _ hi
        simp only [accept, Act.result_adapt, hi, Act.chain_ok, mapError_error, Act.chain_error]
        exact .full
      · simp only [accept, Act.result_adapt, hi, Act.chain_ok, mapError_ok]
        exact .made hm (Store.insert_eq_ok_iff.mp hi)
  | use number u =>
    simp only [act]
    cases hn : σ.handle? c number with
    | none => exact .noHandle hn
    | some h =>
      simp only
      cases hp : σ.store.find? h with
      | none =>
        rw [carryOut_of_not_live (Use.subject?_errand f h u) hp]
        exact .dead hn hp
      | some p =>
        have hcarried := carryOut_use hσ.wellFormed hp f u
        generalize hx : u.onPath f p = x at hcarried
        generalize carryOut σ.store (u.errand f h) = y at hcarried ⊢
        cases hcarried with
        | done ht => exact .used hn hp hx ht
        | failed => exact .refused hn hp hx

section Acted

variable {f : Format} {task : Task} {sight : Sight} {τ : Scene Client}

theorem Acted.sound (ha : Acted f σ c task sight τ) (hσ : σ.Sound) : τ.Sound := by
  cases ha with
  | made _ hi => exact hσ.record_stored c hi
  | full | notArrived => exact hσ.record_none c
  | noHandle | dead | refused => exact hσ
  | used _ _ _ ht => exact hσ.touched ht

/-- **A task of another client** does not touch the view of a client. -/
theorem Acted.view_of_ne (ha : Acted f σ d task sight τ) (hσ : σ.Sound) (hne : c ≠ d) : τ.view c = σ.view c := by
  cases ha with
  | made _ hi => rw [view_record_of_ne hne, hσ.view_stored hi]
  | full | notArrived => exact view_record_of_ne hne σ σ.store none
  | noHandle | dead | refused => rfl
  | used hn _ _ ht => exact hσ.view_touched_of_ne hne hn ht

/-- **A task of one's own** shows what the view of the client tells and leaves the view that it tells, unless there is no
room. -/
theorem Acted.view_act (ha : Acted f σ c task sight τ) (hσ : σ.Sound) (hroom : sight ≠ .exhausted) :
    (σ.view c).act f task = (sight, τ.view c) := by
  have hview := view_getElem?_join σ c
  cases ha with
  | made hm hi =>
    simp only [View.act, hm]
    rw [view_record_self, hσ.view_stored hi, Option.map_some, hi.find?_eq hσ.wellFormed, if_pos rfl]
  | full => exact absurd rfl hroom
  | notArrived hm =>
    simp only [View.act, hm]
    rw [view_record_self, Option.map_none]
  | noHandle hn => simp only [View.act, hview, hn, Option.map_none]
  | dead hn hp => simp only [View.act, hview, hn, Option.map_some, hp]
  | used hn hp hu ht =>
    simp only [View.act, hview, hn, Option.map_some, hp, hu]
    rw [hσ.view_touched hn ht]
  | refused hn hp hu => simp only [View.act, hview, hn, Option.map_some, hp, hu]

end Acted

/-! ## All tasks -/

theorem map_fst_play (f : Format) (σ : Scene Client) (schedule : List (Client × Task)) :
    (σ.play f schedule).map Prod.fst = schedule.map Prod.fst := by
  induction schedule generalizing σ with
  | nil => rfl
  | cons entry rest ih => simp [play, ih]

/-- What a client sees among others is what its view tells of its own tasks. -/
theorem Sound.only_play (hσ : σ.Sound) (f : Format) (c : Client) (schedule : List (Client × Task))
    (hroom : (c, Sight.exhausted) ∉ σ.play f schedule) :
    only c (σ.play f schedule) =
      ((σ.view c).play f ((only c schedule).map Prod.snd)).map fun sight => (c, sight) := by
  induction schedule generalizing σ with
  | nil => rfl
  | cons entry rest ih =>
    obtain ⟨d, task⟩ := entry
    have hacted := hσ.acted f d task
    obtain ⟨hfirst, hlater⟩ : (c, Sight.exhausted) ≠ (d, (σ.act f d task).1) ∧ _ := by
      simpa only [play, List.mem_cons, not_or] using hroom
    have hrest := ih (hacted.sound hσ) hlater
    unfold only at hrest ⊢
    by_cases hd : d = c
    · subst hd
      have hown := hacted.view_act hσ fun he => hfirst (by rw [he])
      simp only [play, View.play, List.filter_cons, decide_true, if_true, List.map_cons, hown, hrest]
    · rw [hacted.view_of_ne hσ (Ne.symm hd)] at hrest
      simp only [play, List.filter_cons, hd, decide_false, Bool.false_eq_true, if_false, hrest]

/-- A client that is alone sees nothing of others. -/
theorem only_play_only (f : Format) (σ : Scene Client) (c : Client) (schedule : List (Client × Task)) :
    only c (σ.play f (only c schedule)) = σ.play f (only c schedule) := by
  apply List.filter_eq_self.mpr
  intro entry hmem
  have hclient : entry.1 ∈ (only c schedule).map Prod.fst := by
    rw [← map_fst_play f σ]
    exact List.mem_map_of_mem hmem
  obtain ⟨other, hother, heq⟩ := List.mem_map.mp hclient
  rw [← heq]
  exact (List.mem_filter.mp hother).2

theorem only_only {α : Type} (c : Client) (entries : List (Client × α)) : only c (only c entries) = only c entries := by
  simp [only]

end Scene

/-- **Clients do not interfere.** Whatever the tasks of all clients and in whatever order they come, each client sees what
it would see if it were alone: the same successes and failures for the same reasons, and the same yields. It is only
assumed that the client does not find the store full, neither among the others nor alone. -/
theorem clients_do_not_interfere {Client : Type} [DecidableEq Client] (f : Format) (schedule : List (Client × Task))
    (c : Client) (hshared : (c, Sight.exhausted) ∉ Scene.start.play f schedule)
    (halone : (c, Sight.exhausted) ∉ Scene.start.play f (only c schedule)) :
    only c (Scene.start.play f schedule) = Scene.start.play f (only c schedule) := by
  have hamong := Scene.sound_start.only_play f c schedule hshared
  have hsolo := Scene.sound_start.only_play f c (only c schedule) halone
  rw [Scene.only_play_only, Scene.only_only] at hsolo
  rw [hamong, hsolo]

/-- The second client is given the slot of the path that the first one has destroyed. The first client's old handle is
as dead as if nobody had come, and its next path stands in another slot than it would have alone. -/
theorem clients_do_not_interfere_reuse :
    let schedule : List (Bool × Task) :=
      [ (true, .make (.create 7)), (true, .use 0 .destroy), (false, .make (.create 8)), (true, .use 0 .id),
        (true, .make (.create 9)), (false, .use 0 .id), (true, .use 1 .id) ]
    only true (Scene.start.play {} schedule) = Scene.start.play {} (only true schedule) ∧
      Scene.start.play {} (only true schedule) =
        [ (true, .made), (true, .yielded (.answer .done)), (true, .failed none), (true, .made),
          (true, .yielded (.answer (.id 9))) ] := by
  intro schedule
  exact ⟨clients_do_not_interfere {} schedule true (by decide) (by decide), by decide⟩

end Polypath.Clients
