import Mathlib.Data.Finmap
import Polypath.Proofs.Store.Changes

/-!
# A store is a map

A store is asked by requests, and the store after a request is the one that the request left, whether it was answered or
refused. `Map.perform` answers the same requests from a plain finite map of handles to paths, with no slots, no
generations and no free list; only the handle of a new path is left open there. Asked from the beginning by whatever
requests, with whatever handles, a store gives the answers of the map, for some choice of new handles that are not in
use, and refuses a new path only when it is full (`store_is_map`): a simulation, one request at a time
(`perform_matches`), along the invariant that the look-up is the map's and the number of paths is its size (`Shows`). A
request that is refused leaves the store as it was, to the last slot.
-/

namespace Polypath.Store

open Journal Outcome

/-! ## Requests -/

/-- What a store can be asked. -/
inductive Request where
  | create (id : UInt32)
  | insert (p : Path)
  | destroy (h : Handle)
  | set (h : Handle) (axis : Axis) (values : List Coord) (declared : Nat)
  | replace (h : Handle) (axis : Axis) (values : List Coord)
  | get (h : Handle)
  | id (h : Handle)
  | count (h : Handle) (axis : Axis)
  | coords (h : Handle) (axis : Axis)
  | item (h : Handle) (axis : Axis) (index : Nat)
  | contains (h : Handle)
  | live
deriving DecidableEq, Repr

namespace Request

/-- Whether a request asks for a new path. -/
def makes : Request → Bool
  | .create _ | .insert _ => true
  | _ => false

/-- The handle that a request is about and that has to be live. -/
def subject? : Request → Option Handle
  | .create _ | .insert _ | .contains _ | .live => none
  | .destroy h | .set h _ _ _ | .replace h _ _ | .get h | .id h | .count h _ | .coords h _ | .item h _ _ => some h

end Request

/-- What a request is answered with, unless it is refused. -/
inductive Answer where
  | handle (h : Handle)
  | done
  | path (p : Path)
  | id (id : UInt32)
  | count (n : Nat)
  | coords (values : List Coord)
  | coord (c : Coord)
  | flag (b : Bool)
deriving DecidableEq, Repr

/-- A request as an act on a store. -/
def Request.act : Request → Act Store Fault Answer
  | .create number => return .handle (← Store.create number)
  | .insert p => return .handle (← Store.insert p)
  | .destroy h => do
    Store.destroy h
    return .done
  | .set h axis values declared => do
    Store.set h axis values declared
    return .done
  | .replace h axis values => do
    Store.replace h axis values
    return .done
  | .get h => return .path (← Act.ask fun s => s.get h)
  | .id h => return .id (← Act.ask fun s => s.id h)
  | .count h axis => return .count (← Act.ask fun s => s.count h axis)
  | .coords h axis => return .coords (← Act.ask fun s => s.coords h axis)
  | .item h axis index => return .coord (← Act.ask fun s => s.item h axis index)
  | .contains h => return .flag (← Act.read fun s => s.contains h)
  | .live => return .count (← Act.read fun s => s.live)

/-- The answer of a store to a request, or the reason for which it is refused, and the store after it. -/
def perform (s : Store) (r : Request) : Except Fault Answer × Store := r.act.result s

/-! ## Maps -/

/-- A plain map from handles to paths. -/
abbrev Map := Finmap fun _ : Handle => Path

namespace Map

/-- The path of a handle that has to be in the map. -/
def get (m : Map) (h : Handle) : Except Fault Path :=
  match m.lookup h with
  | some p => .ok p
  | none => .error (.invalidHandle h)

/-- The answer of a map to a request and the map after it, if the next new path is put under the handle `fresh`. -/
def perform (m : Map) (fresh : Handle) : Request → Except Fault (Answer × Map)
  | .create id => return (.handle fresh, m.insert fresh (.empty id))
  | .insert p => return (.handle fresh, m.insert fresh p)
  | .destroy h => do
    let _ ← m.get h
    return (.done, m.erase h)
  | .set h axis values declared => do
    let p ← m.get h
    if declared = values.length then return (.done, m.insert h (p.replace axis values))
    else throw (.lengthMismatch axis declared values.length)
  | .replace h axis values => do
    let p ← m.get h
    return (.done, m.insert h (p.replace axis values))
  | .get h => return (.path (← m.get h), m)
  | .id h => return (.id (← m.get h).id, m)
  | .count h axis => return (.count ((← m.get h).coords axis).length, m)
  | .coords h axis => return (.coords ((← m.get h).coords axis), m)
  | .item h axis index => do
    let values := (← m.get h).coords axis
    if hi : index < values.length then return (.coord values[index], m)
    else throw (.indexOutOfBounds axis index values.length)
  | .contains h => return (.flag (decide (h ∈ m)), m)
  | .live => return (.count m.keys.card, m)

end Map

/-! ## Store and map side by side -/

/-- There is a slot for a new path: one that waits, or an index that has none. -/
def HasRoom (s : Store) : Prop := s.free ≠ [] ∨ s.slots.size < capacity

/-- The store holds the paths of the map under the handles of the map, and counts them right. -/
structure Shows (s : Store) (m : Map) : Prop where
  find?_eq : ∀ h, s.find? h = m.lookup h
  live_eq : s.live = m.keys.card

/-- Store and map give the same answers to requests that come one after the other. The store always shows the map. A
request is answered by both, or refused by both for the same reason and changes neither; a new path is put under a
handle that is not in the map. Only the map always has room: a full store refuses a new path and stays as it is. -/
inductive Lockstep : Store → Map → List Request → Prop
  | done {s : Store} {m : Map} : Shows s m → Lockstep s m []
  | answered {s t : Store} {m n : Map} {r : Request} {rs : List Request} {fresh : Handle} {a : Answer} :
      Shows s m → (r.makes = true → fresh ∉ m) → s.perform r = (.ok a, t) → m.perform fresh r = .ok (a, n) →
      Lockstep t n rs → Lockstep s m (r :: rs)
  | refused {s : Store} {m : Map} {r : Request} {rs : List Request} {fresh : Handle} {e : Fault} :
      Shows s m → s.perform r = (.error e, s) → m.perform fresh r = .error e →
      Lockstep s m rs → Lockstep s m (r :: rs)
  | full {s : Store} {m : Map} {r : Request} {rs : List Request} :
      Shows s m → r.makes = true → ¬ s.HasRoom → s.perform r = (.error .exhausted, s) →
      Lockstep s m rs → Lockstep s m (r :: rs)

/-! ## Room -/

/-- A well-formed store with room takes a new path. -/
theorem insert_of_hasRoom {s : Store} (hs : s.WellFormed) (hroom : s.HasRoom) (p : Path) :
    ∃ h t, Stored s p h t := by
  cases hfree : s.free with
  | cons index free =>
    obtain ⟨g, hg⟩ := hs.vacant index (by rw [hfree]; exact List.mem_cons_self)
    exact ⟨_, _, .reuse hfree hg⟩
  | nil =>
    rcases hroom with hne | hlt
    · exact absurd hfree hne
    · exact ⟨_, _, .grow hfree hlt⟩

/-- A full store refuses a new path. -/
theorem insert_of_full {s : Store} (hfull : ¬ s.HasRoom) (p : Path) :
    (Store.insert p).result s = (.error .exhausted, s) := by
  obtain ⟨hfree, hsize⟩ : s.free = [] ∧ ¬ s.slots.size < capacity := by
    simpa [HasRoom] using hfull
  exact result_insert_full hfree hsize p

theorem perform_of_full {s : Store} {r : Request} (hr : r.makes = true) (hfull : ¬ s.HasRoom) :
    s.perform r = (.error .exhausted, s) := by
  cases r with
  | create | insert => simp [perform, Request.act, create, insert_of_full hfull]
  | destroy | set | replace | get | id | count | coords | item | contains | live => cases hr

/-! ## The simulation -/

section Simulation

variable {s t : Store} {m : Map} {h : Handle} {p : Path}

theorem shows_empty : Shows .empty ∅ where
  find?_eq h := by simp [find?, empty]
  live_eq := by simp [empty]

theorem Shows.get_eq (hm : Shows s m) (h : Handle) : s.get h = m.get h := by
  cases hk : m.lookup h with
  | none => simp [get, Map.get, hm.find?_eq, hk]
  | some p => simp [get, Map.get, hm.find?_eq, hk]

/-- A handle that is live in the store is in the map. -/
theorem Shows.mem_iff (hm : Shows s m) : h ∈ m ↔ s.contains h = true := by
  rw [contains, hm.find?_eq, Finmap.lookup_isSome]

theorem Map.lookup_insert (m : Map) (h : Handle) (p : Path) (k : Handle) :
    (m.insert h p).lookup k = if k = h then some p else m.lookup k := by
  split
  · next hk => rw [hk, Finmap.lookup_insert]
  · next hk => exact Finmap.lookup_insert_of_ne m hk

theorem Map.keys_insert (m : Map) (h : Handle) (p : Path) : (m.insert h p).keys = Insert.insert h m.keys := by
  ext k
  simp [Finmap.mem_keys, Finmap.mem_insert]

/-- A new path is put under a handle that was not in the map. -/
theorem Shows.stored (hm : Shows s m) (hs : s.WellFormed) (hi : Stored s p h t) :
    h ∉ m ∧ Shows t (m.insert h p) := by
  have hfresh : h ∉ m := by
    rw [← Finmap.lookup_eq_none, ← hm.find?_eq]
    exact hi.find?_before hs rfl
  refine ⟨hfresh, ?_, ?_⟩
  · intro k
    rw [hi.find?_eq hs, Map.lookup_insert, hm.find?_eq]
  · have hlive : t.live = s.live + 1 := by cases hi <;> rfl
    rw [Map.keys_insert, Finset.card_insert_of_notMem (by rwa [Finmap.mem_keys]), hlive, hm.live_eq]

theorem Shows.destroyed (hm : Shows s m) (hd : Destroyed s h t) : Shows t (m.erase h) := by
  obtain ⟨p, hp⟩ := hd.live
  have hmem : h ∈ m := Finmap.mem_of_lookup_eq_some ((hm.find?_eq h).symm.trans hp)
  refine ⟨?_, ?_⟩
  · intro k
    rw [hd.find?_eq]
    split
    · next hk => rw [hk, Finmap.lookup_erase]
    · next hk => rw [Finmap.lookup_erase_ne hk, hm.find?_eq]
  · have hlive : t.live = s.live - 1 := by cases hd <;> rfl
    rw [Finmap.keys_erase, Finset.card_erase_of_mem (by rwa [Finmap.mem_keys]), hlive, hm.live_eq]

theorem Shows.replaced {axis : Axis} {values : List Coord} (hm : Shows s m) (hr : Replaced s h axis values t)
    (hp : s.find? h = some p) : Shows t (m.insert h (p.replace axis values)) := by
  have hmem : h ∈ m := Finmap.mem_of_lookup_eq_some ((hm.find?_eq h).symm.trans hp)
  refine ⟨?_, ?_⟩
  · intro k
    rw [hr.find?_eq hp, Map.lookup_insert, hm.find?_eq]
  · have hlive : t.live = s.live := by cases hr; rfl
    rw [Map.keys_insert, Finset.insert_eq_of_mem (by rwa [Finmap.mem_keys]), hlive, hm.live_eq]

/-- A request about a handle that is not live is refused for that reason, whatever else is wrong with it. -/
theorem perform_of_not_live {r : Request} (hr : r.subject? = some h) (hn : s.find? h = none) :
    s.perform r = (.error (.invalidHandle h), s) := by
  have hget := get_eq_error hn
  cases r <;> cases hr <;> simp [perform, Request.act, destroy, set, replace, id, count, coords, item, hget]

theorem Map.perform_of_notMem {r : Request} (hr : r.subject? = some h) (hn : m.lookup h = none) (fresh : Handle) :
    m.perform fresh r = .error (.invalidHandle h) := by
  have hget : m.get h = .error (.invalidHandle h) := by simp [Map.get, hn]
  cases r <;> cases hr <;> simp [Map.perform, hget]

theorem exists_destroyed (hp : s.find? h = some p) : ∃ t, Destroyed s h t := by
  cases hg : h.generation.next? with
  | some g => exact ⟨_, .release hp hg⟩
  | none => exact ⟨_, .retire hp hg⟩

/-- The outcomes of a request at a store and at a map: the same answer, with states that still belong together, or the
same fault, with the store as it was. -/
inductive Matches (s : Store) : Except Fault Answer × Store → Except Fault (Answer × Map) → Prop
  | answered {a : Answer} {t : Store} {n : Map} : t.WellFormed → Shows t n → Matches s (.ok a, t) (.ok (a, n))
  | refused {e : Fault} : Matches s (.error e, s) (.error e)

/-- A request about a live handle. -/
theorem perform_matches_of_live (hs : s.WellFormed) (hm : Shows s m) {r : Request} (hr : r.subject? = some h)
    (hp : s.find? h = some p) (fresh : Handle) : Matches s (s.perform r) (m.perform fresh r) := by
  have hget : s.get h = .ok p := get_eq_ok_iff.mpr hp
  have hget' : m.get h = .ok p := (hm.get_eq h).symm.trans hget
  cases r with
  | create | insert | contains | live => cases hr
  | destroy h =>
    cases hr
    obtain ⟨t, hd⟩ := exists_destroyed hp
    simp only [perform, Request.act, Act.result_bind, destroy_eq_ok_iff.mpr hd, Map.perform, hget']
    exact .answered (hd.wellFormed hs) (hm.destroyed hd)
  | set h axis values declared =>
    cases hr
    by_cases hd : declared = values.length
    · have hreplaced : Replaced s h axis values _ := .replace hp
      simp only [perform, Request.act, Act.result_bind, set_eq_ok_iff.mpr ⟨hd, hreplaced⟩, Map.perform, hget', ok_bind,
        if_pos hd]
      exact .answered (hreplaced.wellFormed hs) (hm.replaced hreplaced hp)
    · simp only [perform, Request.act, set, Act.result_bind, Act.result_ask, Act.chain_ok, hget, Map.perform, hget',
        ok_bind, if_neg hd]
      exact .refused
  | replace h axis values =>
    cases hr
    have hreplaced : Replaced s h axis values _ := .replace hp
    simp only [perform, Request.act, Act.result_bind, replace_eq_ok_iff.mpr hreplaced, Map.perform, hget']
    exact .answered (hreplaced.wellFormed hs) (hm.replaced hreplaced hp)
  | get h =>
    cases hr
    simp only [perform, Request.act, Act.result_bind, Act.result_ask, Map.perform, hget, hget']
    exact .answered hs hm
  | id h =>
    cases hr
    simp only [perform, Request.act, Act.result_bind, Act.result_ask, Map.perform, id, hget, hget']
    exact .answered hs hm
  | count h axis =>
    cases hr
    simp only [perform, Request.act, Act.result_bind, Act.result_ask, Map.perform, count, coords, hget, hget']
    exact .answered hs hm
  | coords h axis =>
    cases hr
    simp only [perform, Request.act, Act.result_bind, Act.result_ask, Map.perform, coords, hget, hget']
    exact .answered hs hm
  | item h axis index =>
    cases hr
    simp only [perform, Request.act, Act.result_bind, Act.result_ask, Map.perform, item, coords, hget, hget', ok_bind,
      pure_eq_ok]
    by_cases hi : index < (p.coords axis).length
    · simp only [List.getElem?_eq_getElem hi, dif_pos hi]
      exact .answered hs hm
    · simp only [List.getElem?_eq_none (Nat.le_of_not_lt hi), dif_neg hi]
      exact .refused

/-- **One request.** Store and map are asked the same and stay together, for some handle of a new path that was not in
the map. -/
theorem perform_matches (hs : s.WellFormed) (hm : Shows s m) (r : Request) (hroom : r.makes = true → s.HasRoom) :
    ∃ fresh, (r.makes = true → fresh ∉ m) ∧ Matches s (s.perform r) (m.perform fresh r) := by
  have hmake : ∀ p, s.HasRoom → ∃ fresh t, (Store.insert p).result s = (.ok fresh, t) ∧ fresh ∉ m ∧ t.WellFormed ∧
      Shows t (m.insert fresh p) := by
    intro p hroom
    obtain ⟨fresh, t, hi⟩ := insert_of_hasRoom hs hroom p
    exact ⟨fresh, t, insert_eq_ok_iff.mpr hi, (hm.stored hs hi).1, hi.wellFormed hs, (hm.stored hs hi).2⟩
  cases hr : r.subject? with
  | some h =>
    refine ⟨h, fun hmakes => ?_, ?_⟩
    · cases r <;> cases hr <;> cases hmakes
    · cases hp : s.find? h with
      | none =>
        rw [perform_of_not_live hr hp, Map.perform_of_notMem hr ((hm.find?_eq h).symm.trans hp)]
        exact .refused
      | some p => exact perform_matches_of_live hs hm hr hp h
  | none =>
    cases r with
    | create id =>
      obtain ⟨fresh, t, hi, hfresh, ht, hn⟩ := hmake (.empty id) (hroom rfl)
      refine ⟨fresh, fun _ => hfresh, ?_⟩
      simp only [perform, Request.act, Act.result_bind, create, hi, Map.perform]
      exact .answered ht hn
    | insert p =>
      obtain ⟨fresh, t, hi, hfresh, ht, hn⟩ := hmake p (hroom rfl)
      refine ⟨fresh, fun _ => hfresh, ?_⟩
      simp only [perform, Request.act, Act.result_bind, hi, Map.perform]
      exact .answered ht hn
    | contains h =>
      have hflag : s.contains h = decide (h ∈ m) := by
        rw [Bool.eq_iff_iff, decide_eq_true_iff, hm.mem_iff]
      refine ⟨h, nofun, ?_⟩
      simp only [perform, Request.act, Act.result_bind, Act.result_read, Map.perform, hflag]
      exact .answered hs hm
    | live =>
      refine ⟨⟨0, .first⟩, nofun, ?_⟩
      simp only [perform, Request.act, Act.result_bind, Act.result_read, Map.perform, hm.live_eq]
      exact .answered hs hm
    | destroy | set | replace | get | id | count | coords | item => cases hr

/-- **A run.** From states that belong together, store and map give the same answers to all requests. -/
theorem lockstep_of_shows (hs : s.WellFormed) (hm : Shows s m) (rs : List Request) : Lockstep s m rs := by
  induction rs generalizing s m with
  | nil => exact .done hm
  | cons r rs ih =>
    by_cases hroom : r.makes = true → s.HasRoom
    · obtain ⟨fresh, hfresh, hmatches⟩ := perform_matches hs hm r hroom
      generalize hx : s.perform r = x at hmatches
      generalize hy : m.perform fresh r = y at hmatches
      cases hmatches with
      | answered ht hn => exact .answered hm hfresh hx hy (ih ht hn)
      | refused => exact .refused hm hx hy (ih hs hm)
    · obtain ⟨hmakes, hfull⟩ := Classical.not_imp.mp hroom
      exact .full hm hmakes hfull (perform_of_full hmakes hfull) (ih hs hm)

/-- **A store is a map.** Whatever requests an empty store gets, with whatever handles, it answers each as a plain map
from handles to paths would, except that it can be full. -/
theorem store_is_map (requests : List Request) : Lockstep .empty ∅ requests :=
  lockstep_of_shows wellFormed_empty shows_empty requests

end Simulation

end Polypath.Store
