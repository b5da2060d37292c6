import Polypath.Proofs.Journal.Acts
import Polypath.Store.Basic

/-!
# What an operation does to a store

Three operations change a store, and each writes one slot: storing (`Stored`), destroying (`Destroyed`) and exchanging a
sequence (`Replaced`). These relations say all that the operations do, guards included (`insert_eq_ok_iff`,
`destroy_eq_ok_iff`, `replace_eq_ok_iff`). From them follow

* how each operation shows in the look-up: it concerns one handle and no other (`Stored.find?_eq`,
  `Destroyed.find?_eq`, `Replaced.find?_eq`);
* that each keeps the store well formed (`Stored.wellFormed`, `Destroyed.wellFormed`, `Replaced.wellFormed`).

An operation that fails has changed nothing (`clean_insert`, `clean_destroy`, `clean_replace`, `clean_set`), because all
its checks come before its first change.
-/

namespace Polypath.Store

open Journal Outcome

variable {s t : Store} {h k : Handle} {p : Path}

/-! ## Look-up -/

/-- A handle is live exactly when its slot has its generation and holds a path. -/
theorem find?_eq_some_iff :
    s.find? h = some p ↔ s.slots[h.index.toNat]? = some ⟨h.generation, some p⟩ := by
  unfold find?
  cases s.slots[h.index.toNat]? with
  | none => simp
  | some slot =>
    obtain ⟨g, path⟩ := slot
    by_cases hg : g = h.generation
    · simp [hg]
    · simp [hg]

theorem get_eq_ok_iff : s.get h = .ok p ↔ s.find? h = some p := by
  unfold get
  cases s.find? h <;> simp

/-- A handle that is not live is refused. -/
theorem get_eq_error (hn : s.find? h = none) : s.get h = .error (.invalidHandle h) := by
  simp [get, hn]

section Look

variable {axis : Axis}

theorem id_eq_ok_iff {id : UInt32} : s.id h = .ok id ↔ ∃ p, s.find? h = some p ∧ p.id = id := by
  simp only [Store.id, bind_eq_ok_iff, get_eq_ok_iff, pure_eq_ok, Except.ok.injEq]

theorem coords_eq_ok_iff {values : List Coord} :
    s.coords h axis = .ok values ↔ ∃ p, s.find? h = some p ∧ p.coords axis = values := by
  simp only [coords, bind_eq_ok_iff, get_eq_ok_iff, pure_eq_ok, Except.ok.injEq]

theorem count_eq_ok_iff {count : Nat} :
    s.count h axis = .ok count ↔ ∃ p, s.find? h = some p ∧ (p.coords axis).length = count := by
  simp only [Store.count, bind_eq_ok_iff, coords_eq_ok_iff, pure_eq_ok, Except.ok.injEq]
  constructor
  · rintro ⟨_, ⟨p, hlive, rfl⟩, hlength⟩
    exact ⟨p, hlive, hlength⟩
  · rintro ⟨p, hlive, hlength⟩
    exact ⟨_, ⟨p, hlive, rfl⟩, hlength⟩

theorem item_eq_ok_iff {index : Nat} {c : Coord} :
    s.item h axis index = .ok c ↔ ∃ p, s.find? h = some p ∧ (p.coords axis)[index]? = some c := by
  simp only [item, bind_eq_ok_iff, coords_eq_ok_iff]
  constructor
  · rintro ⟨_, ⟨p, hlive, rfl⟩, hc⟩
    refine ⟨p, hlive, ?_⟩
    split at hc
    · next hitem =>
      cases hc
      exact hitem
    · cases hc
  · rintro ⟨p, hlive, hc⟩
    refine ⟨_, ⟨p, hlive, rfl⟩, ?_⟩
    simp [hc]

end Look

/-- A slot of another generation has nothing for a handle. -/
theorem find?_of_generation_ne {slot : Slot} (hs : s.slots[k.index.toNat]? = some slot)
    (hg : slot.generation ≠ k.generation) : s.find? k = none := by
  simp [find?, hs, hg]

/-! ## Writing one slot -/

/-- `t` has the slots of `s` except that one index has the given slot. -/
def Writes (s t : Store) (index : UInt32) (slot : Slot) : Prop :=
  ∀ i, t.slots[i]? = if i = index.toNat then some slot else s.slots[i]?

/-- A slot that is there is overwritten. -/
theorem writes_set {index : UInt32} {old : Slot} (hold : s.slots[index.toNat]? = some old) (slot : Slot)
    (free : List UInt32) (live : Nat) : Writes s ⟨s.slots.setIfInBounds index.toNat slot, free, live⟩ index slot := by
  intro i
  obtain ⟨hlt, -⟩ := Array.getElem?_eq_some_iff.mp hold
  simp only [Array.getElem?_setIfInBounds]
  by_cases hi : i = index.toNat
  · simp [hi, hlt]
  · simp [hi, Ne.symm hi]

/-- A new slot is written at the first index that has none. -/
theorem writes_push (hroom : s.slots.size < capacity) (slot : Slot) (free : List UInt32) (live : Nat) :
    Writes s ⟨s.slots.push slot, free, live⟩ (UInt32.ofNat s.slots.size) slot := by
  intro i
  simp only [Array.getElem?_push, UInt32.toNat_ofNat_of_lt' hroom]

theorem Writes.at_index {index : UInt32} {slot : Slot} (hw : Writes s t index slot) :
    t.slots[index.toNat]? = some slot := by
  rw [hw]
  simp

theorem Writes.at_other {index i : UInt32} {slot : Slot} (hw : Writes s t index slot) (hi : i ≠ index) :
    t.slots[i.toNat]? = s.slots[i.toNat]? := by
  rw [hw, if_neg]
  exact fun he => hi (UInt32.toNat_inj.mp he)

/-- Handles of other slots do not notice. -/
theorem Writes.find?_of_ne {index : UInt32} {slot : Slot} (hw : Writes s t index slot) (hk : k.index ≠ index) :
    t.find? k = s.find? k := by
  unfold find?
  rw [hw.at_other hk]

/-- Of the handles of the written slot, only the one with the slot's generation can be live. -/
theorem Writes.find?_eq {g : Generation} {path : Option Path} (hw : Writes s t h.index ⟨g, path⟩)
    (hk : k.index = h.index) : t.find? k = if g = k.generation then path else none := by
  unfold find?
  rw [hk, hw.at_index]

theorem eq_of_index_of_generation (hi : k.index = h.index) (hg : k.generation = h.generation) : k = h := by
  cases k
  cases h
  simp_all

/-- If the slot of a handle is written so that the handle gets `path`, and no other handle of the slot was live, then
the handle gets `path` and no other handle notices. -/
theorem Writes.find?_handle {path : Option Path} (hw : Writes s t h.index ⟨h.generation, path⟩)
    (hothers : ∀ k : Handle, k.index = h.index → k ≠ h → s.find? k = none) (k : Handle) :
    t.find? k = if k = h then path else s.find? k := by
  by_cases hk : k = h
  · rw [if_pos hk, hw.find?_eq (congrArg Handle.index hk), if_pos (congrArg Handle.generation hk).symm]
  · rw [if_neg hk]
    by_cases hi : k.index = h.index
    · rw [hw.find?_eq hi, if_neg, hothers k hi hk]
      exact fun hg => hk (eq_of_index_of_generation hi hg.symm)
    · exact hw.find?_of_ne hi

/-- A live handle is the only live one of its slot. -/
theorem find?_eq_none_of_live (hlive : s.find? h = some p) (hi : k.index = h.index) (hk : k ≠ h) :
    s.find? k = none := by
  have hslot : s.slots[k.index.toNat]? = some ⟨h.generation, some p⟩ := by
    rw [hi]
    exact find?_eq_some_iff.mp hlive
  exact find?_of_generation_ne hslot fun hg => hk (eq_of_index_of_generation hi hg.symm)

/-- Vacating the slot of a live handle ends that handle, whatever the slot's new generation, and no other. -/
theorem Writes.find?_vacant {g : Generation} (hw : Writes s t h.index ⟨g, none⟩) (hlive : s.find? h = some p)
    (k : Handle) : t.find? k = if k = h then none else s.find? k := by
  by_cases hi : k.index = h.index
  · have hnone : t.find? k = none := by rw [hw.find?_eq hi, ite_self]
    rw [hnone]
    split
    · rfl
    · next hk => exact (find?_eq_none_of_live hlive hi hk).symm
  · rw [hw.find?_of_ne hi, if_neg]
    exact fun hk => hi (congrArg Handle.index hk)

/-! ## The three changes -/

/-- How a path is stored under a handle: in the slot that waits first, or in a new one. -/
inductive Stored (s : Store) (p : Path) : Handle → Store → Prop
  | reuse {index : UInt32} {free : List UInt32} {slot : Slot} :
      s.free = index :: free → s.slots[index.toNat]? = some slot →
      Stored s p ⟨index, slot.generation⟩
        ⟨s.slots.setIfInBounds index.toNat { slot with path := some p }, free, s.live + 1⟩
  | grow :
      s.free = [] → s.slots.size < capacity →
      Stored s p ⟨UInt32.ofNat s.slots.size, .first⟩ ⟨s.slots.push ⟨.first, some p⟩, [], s.live + 1⟩

/-- How a live handle is destroyed: its slot grows older and waits, or is retired. -/
inductive Destroyed (s : Store) (h : Handle) : Store → Prop
  | release {p : Path} {g : Generation} :
      s.find? h = some p → h.generation.next? = some g →
      Destroyed s h ⟨s.slots.setIfInBounds h.index.toNat ⟨g, none⟩, h.index :: s.free, s.live - 1⟩
  | retire {p : Path} :
      s.find? h = some p → h.generation.next? = none →
      Destroyed s h ⟨s.slots.setIfInBounds h.index.toNat ⟨h.generation, none⟩, s.free, s.live - 1⟩

/-- How one sequence of a live handle is exchanged. -/
inductive Replaced (s : Store) (h : Handle) (axis : Axis) (values : List Coord) : Store → Prop
  | replace {p : Path} :
      s.find? h = some p →
      Replaced s h axis values
        { s with slots := s.slots.setIfInBounds h.index.toNat ⟨h.generation, some (p.replace axis values)⟩ }

section Insert

variable {index : UInt32} {free : List UInt32} {slot : Slot}

theorem result_insert_reuse (hfree : s.free = index :: free) (hslot : s.slots[index.toNat]? = some slot) (p : Path) :
    (insert p).result s = (.ok ⟨index, slot.generation⟩,
      ⟨s.slots.setIfInBounds index.toNat { slot with path := some p }, free, s.live + 1⟩) := by
  simp [insert, place, putSlot, hfree, hslot]

theorem result_insert_grow (hfree : s.free = []) (hroom : s.slots.size < capacity) (p : Path) :
    (insert p).result s =
      (.ok ⟨UInt32.ofNat s.slots.size, .first⟩, ⟨s.slots.push ⟨.first, some p⟩, [], s.live + 1⟩) := by
  simp [insert, place, hfree, hroom]

theorem result_insert_full (hfree : s.free = []) (hfull : ¬ s.slots.size < capacity) (p : Path) :
    (insert p).result s = (.error .exhausted, s) := by
  simp [insert, place, hfree, hfull]

/-- An index that waits without a slot would not be used; no store that is well formed has one. -/
theorem result_insert_unslotted (hfree : s.free = index :: free) (hslot : s.slots[index.toNat]? = none) (p : Path) :
    (insert p).result s = (.error .exhausted, s) := by
  simp [insert, place, hfree, hslot]

theorem insert_eq_ok_iff : (insert p).result s = (.ok h, t) ↔ Stored s p h t := by
  constructor
  · intro hi
    cases hfree : s.free with
    | cons index free =>
      cases hslot : s.slots[index.toNat]? with
      | some slot =>
        rw [result_insert_reuse hfree hslot] at hi
        cases hi
        exact .reuse hfree hslot
      | none =>
        rw [result_insert_unslotted hfree hslot] at hi
        cases hi
    | nil =>
      by_cases hroom : s.slots.size < capacity
      · rw [result_insert_grow hfree hroom] at hi
        cases hi
        exact .grow hfree hroom
      · rw [result_insert_full hfree hroom] at hi
        cases hi
  · intro hi
    cases hi with
    | reuse hfree hslot => exact result_insert_reuse hfree hslot p
    | grow hfree hroom => exact result_insert_grow hfree hroom p

/-- There is one reason for which a path is not stored. -/
theorem insert_eq_exhausted {fault : Fault} (hi : (insert p).result s = (.error fault, t)) : fault = .exhausted := by
  cases hfree : s.free with
  | cons index free =>
    cases hslot : s.slots[index.toNat]? with
    | some slot =>
      rw [result_insert_reuse hfree hslot] at hi
      cases hi
    | none =>
      rw [result_insert_unslotted hfree hslot] at hi
      cases hi
      rfl
  | nil =>
    by_cases hroom : s.slots.size < capacity
    · rw [result_insert_grow hfree hroom] at hi
      cases hi
    · rw [result_insert_full hfree hroom] at hi
      cases hi
      rfl

end Insert

section Destroy

theorem result_destroy_release {g : Generation} (hlive : s.find? h = some p) (hg : h.generation.next? = some g) :
    (destroy h).result s =
      (.ok (), ⟨s.slots.setIfInBounds h.index.toNat ⟨g, none⟩, h.index :: s.free, s.live - 1⟩) := by
  simp [destroy, release, putSlot, hg, get_eq_ok_iff.mpr hlive]

theorem result_destroy_retire (hlive : s.find? h = some p) (hg : h.generation.next? = none) :
    (destroy h).result s =
      (.ok (), ⟨s.slots.setIfInBounds h.index.toNat ⟨h.generation, none⟩, s.free, s.live - 1⟩) := by
  simp [destroy, release, putSlot, hg, get_eq_ok_iff.mpr hlive]

theorem result_destroy_of_not_live (hn : s.find? h = none) : (destroy h).result s = (.error (.invalidHandle h), s) := by
  simp [destroy, get_eq_error hn]

theorem destroy_eq_ok_iff : (destroy h).result s = (.ok (), t) ↔ Destroyed s h t := by
  constructor
  · intro hd
    cases hlive : s.find? h with
    | none =>
      rw [result_destroy_of_not_live hlive] at hd
      cases hd
    | some p =>
      cases hg : h.generation.next? with
      | some g =>
        rw [result_destroy_release hlive hg] at hd
        cases hd
        exact .release hlive hg
      | none =>
        rw [result_destroy_retire hlive hg] at hd
        cases hd
        exact .retire hlive hg
  · intro hd
    cases hd with
    | release hlive hg => exact result_destroy_release hlive hg
    | retire hlive hg => exact result_destroy_retire hlive hg

end Destroy

theorem replace_eq_ok_iff {axis : Axis} {values : List Coord} :
    (replace h axis values).result s = (.ok (), t) ↔ Replaced s h axis values t := by
  simp only [replace, Act.result_bind, Act.result_ask, Act.chain_eq_ok_iff, Prod.mk.injEq, get_eq_ok_iff,
    Act.result_change, true_and]
  constructor
  · rintro ⟨p, _, ⟨hlive, rfl⟩, rfl⟩
    exact .replace hlive
  · rintro ⟨hlive⟩
    exact ⟨_, _, ⟨hlive, rfl⟩, rfl⟩

/-- A sequence with a declared length is exchanged exactly when the length is right. -/
theorem set_eq_ok_iff {axis : Axis} {values : List Coord} {declared : Nat} :
    (set h axis values declared).result s = (.ok (), t) ↔ declared = values.length ∧ Replaced s h axis values t := by
  simp only [set, Act.result_bind, Act.result_ask, Act.chain_eq_ok_iff, Prod.mk.injEq, get_eq_ok_iff]
  constructor
  · rintro ⟨_, _, ⟨-, rfl⟩, hset⟩
    split at hset
    · next hd => exact ⟨hd, replace_eq_ok_iff.mp hset⟩
    · cases hset
  · rintro ⟨hd, hr⟩
    have hset := replace_eq_ok_iff.mpr hr
    obtain ⟨hlive⟩ := hr
    exact ⟨_, _, ⟨hlive, rfl⟩, by rwa [if_pos hd]⟩

/-- Whether a path can be stored does not depend on the path. -/
theorem Stored.of_other (hi : Stored s p h t) (q : Path) : ∃ u, Stored s q h u := by
  cases hi with
  | reuse hfree hslot => exact ⟨_, .reuse hfree hslot⟩
  | grow hfree hroom => exact ⟨_, .grow hfree hroom⟩

/-! ## Failures -/

theorem clean_place (p : Path) : Act.Clean (place p) := by
  refine Act.Still.bind (Act.still_look _) fun waiting => ?_
  cases waiting with
  | cons index free =>
    refine Act.Still.bind (Act.still_look _) fun slot? => ?_
    cases slot? with
    | some slot => exact ((Act.sure_change _).bind fun _ => (Act.sure_change _).bind fun _ => Act.sure_pure _).clean
    | none => exact Act.clean_throw _
  | nil =>
    refine Act.Still.bind (Act.still_look _) fun size => ?_
    split
    · exact ((Act.sure_change _).bind fun _ => Act.sure_pure _).clean
    · exact Act.clean_throw _

theorem clean_insert (p : Path) : Act.Clean (insert p) :=
  (clean_place p).bind fun _ => (Act.sure_change _).bind fun _ => (Act.sure_tell _).bind fun _ => Act.sure_pure _

theorem sure_release (h : Handle) : Act.Sure (release h) := by
  unfold release
  split
  · exact (Act.sure_change _).bind fun _ => Act.sure_change _
  · exact Act.sure_pure _

theorem clean_destroy (h : Handle) : Act.Clean (destroy h) :=
  (Act.still_look _).bind fun _ =>
    ((Act.sure_change _).bind fun _ => (Act.sure_change _).bind fun _ => (sure_release h).bind fun _ =>
      Act.sure_tell _).clean

theorem clean_replace (h : Handle) (axis : Axis) (values : List Coord) : Act.Clean (replace h axis values) :=
  (Act.still_look _).bind fun _ => (Act.sure_change _).clean

theorem clean_set (h : Handle) (axis : Axis) (values : List Coord) (declared : Nat) :
    Act.Clean (set h axis values declared) := by
  refine (Act.still_look _).bind fun _ => ?_
  split
  · exact clean_replace h axis values
  · exact Act.clean_throw _

/-! ## Well-formed stores -/

/-- The number of slots that hold a path. -/
def occupied (s : Store) : Nat := s.slots.countP fun slot => slot.path.isSome

/-- Every index is an index, the waiting slots are vacant and wait once, every other vacant slot is at its last
generation, and the paths are counted right. -/
structure WellFormed (s : Store) : Prop where
  size_le : s.slots.size ≤ capacity
  nodup : s.free.Nodup
  vacant : ∀ i ∈ s.free, ∃ g, s.slots[i.toNat]? = some ⟨g, none⟩
  retired : ∀ (i : UInt32) (g : Generation), s.slots[i.toNat]? = some ⟨g, none⟩ → i ∈ s.free ∨ g.next? = none
  live_eq : s.live = s.occupied

theorem wellFormed_empty : WellFormed empty where
  size_le := Nat.zero_le _
  nodup := List.nodup_nil
  vacant i hi := by cases hi
  retired i g hi := by simp [empty] at hi
  live_eq := rfl

/-- The slot of a live handle does not wait. -/
theorem WellFormed.notMem_free (hs : s.WellFormed) (hlive : s.find? h = some p) : h.index ∉ s.free := by
  intro hmem
  obtain ⟨g, hg⟩ := hs.vacant _ hmem
  rw [find?_eq_some_iff.mp hlive] at hg
  simp at hg

/-- No handle of a waiting slot is live. -/
theorem WellFormed.find?_of_mem_free (hs : s.WellFormed) (hmem : k.index ∈ s.free) : s.find? k = none := by
  cases hk : s.find? k with
  | none => rfl
  | some p => exact absurd hmem (hs.notMem_free hk)

/-! ## Look-up after a change -/

/-- The slot that a new path gets, and what it was before: a waiting slot, or none. -/
theorem Stored.writes (hi : Stored s p h t) : Writes s t h.index ⟨h.generation, some p⟩ := by
  cases hi with
  | reuse hfree hslot => exact writes_set hslot _ _ _
  | grow hfree hroom => exact writes_push hroom _ _ _

/-- No handle of the slot that a new path gets was live. -/
theorem Stored.find?_before (hs : s.WellFormed) (hi : Stored s p h t) (hk : k.index = h.index) :
    s.find? k = none := by
  cases hi with
  | reuse hfree hslot =>
    apply hs.find?_of_mem_free
    rw [hk, hfree]
    exact List.mem_cons_self
  | grow hfree hroom =>
    have hnone : s.slots[k.index.toNat]? = none := by
      rw [hk]
      simp only [UInt32.toNat_ofNat_of_lt' hroom]
      exact Array.getElem?_eq_none (Nat.le_refl _)
    simp [find?, hnone]

/-- A new path is found under its handle, and nothing else changes. -/
theorem Stored.find?_eq (hs : s.WellFormed) (hi : Stored s p h t) (k : Handle) :
    t.find? k = if k = h then some p else s.find? k :=
  hi.writes.find?_handle (fun _ hk _ => hi.find?_before hs hk) k

theorem Destroyed.live (hd : Destroyed s h t) : ∃ p, s.find? h = some p := by
  cases hd with
  | release hlive _ => exact ⟨_, hlive⟩
  | retire hlive _ => exact ⟨_, hlive⟩

theorem Destroyed.writes (hd : Destroyed s h t) : ∃ g, Writes s t h.index ⟨g, none⟩ := by
  cases hd with
  | release hlive _ => exact ⟨_, writes_set (find?_eq_some_iff.mp hlive) _ _ _⟩
  | retire hlive _ => exact ⟨_, writes_set (find?_eq_some_iff.mp hlive) _ _ _⟩

/-- A destroyed path is not found, and nothing else changes. -/
theorem Destroyed.find?_eq (hd : Destroyed s h t) (k : Handle) : t.find? k = if k = h then none else s.find? k := by
  obtain ⟨p, hlive⟩ := hd.live
  obtain ⟨g, hw⟩ := hd.writes
  exact hw.find?_vacant hlive k

section Replaced

variable {axis : Axis} {values : List Coord}

theorem Replaced.live (hr : Replaced s h axis values t) : ∃ p, s.find? h = some p := by
  obtain ⟨hlive⟩ := hr
  exact ⟨_, hlive⟩

theorem Replaced.writes (hr : Replaced s h axis values t) (hlive : s.find? h = some p) :
    Writes s t h.index ⟨h.generation, some (p.replace axis values)⟩ := by
  obtain ⟨hlive'⟩ := hr
  rw [hlive] at hlive'
  cases hlive'
  exact writes_set (find?_eq_some_iff.mp hlive) _ _ _

/-- The path is found with the new sequence, and nothing else changes. -/
theorem Replaced.find?_eq (hr : Replaced s h axis values t) (hlive : s.find? h = some p) (k : Handle) :
    t.find? k = if k = h then some (p.replace axis values) else s.find? k :=
  (hr.writes hlive).find?_handle (fun _ hi hk => find?_eq_none_of_live hlive hi hk) k

end Replaced

/-! ## Changes keep a store well formed -/

section Occupied

variable {index : Nat} {g : Generation} (g' : Generation) (q : Path) (free : List UInt32) (live : Nat)

/-- Overwriting a slot changes the number of paths by what the slot held and what it holds. -/
theorem occupied_set {old : Slot} (hold : s.slots[index]? = some old) (slot : Slot) :
    occupied ⟨s.slots.setIfInBounds index slot, free, live⟩ + (if old.path.isSome then 1 else 0) =
      s.occupied + (if slot.path.isSome then 1 else 0) := by
  obtain ⟨hlt, rfl⟩ := Array.getElem?_eq_some_iff.mp hold
  have hle := Array.boole_getElem_le_countP (p := fun slot : Slot => slot.path.isSome) hlt
  simp only [occupied, Array.setIfInBounds, hlt, ↓reduceDIte, Array.countP_set]
  omega

theorem occupied_fill (hold : s.slots[index]? = some ⟨g, none⟩) :
    occupied ⟨s.slots.setIfInBounds index ⟨g', some q⟩, free, live⟩ = s.occupied + 1 :=
  occupied_set free live hold ⟨g', some q⟩

theorem occupied_vacate (hold : s.slots[index]? = some ⟨g, some p⟩) :
    occupied ⟨s.slots.setIfInBounds index ⟨g', none⟩, free, live⟩ = s.occupied - 1 :=
  Nat.eq_sub_of_add_eq (occupied_set free live hold ⟨g', none⟩)

theorem occupied_exchange (hold : s.slots[index]? = some ⟨g, some p⟩) :
    occupied ⟨s.slots.setIfInBounds index ⟨g', some q⟩, free, live⟩ = s.occupied :=
  Nat.add_right_cancel (occupied_set free live hold ⟨g', some q⟩)

end Occupied

/-- Writing one slot keeps a store well formed if the other indices wait as before, the written slot waits only if it is
vacant, and is vacant only if it waits or is at its last generation. -/
theorem WellFormed.of_writes {index : UInt32} {slot : Slot} (hs : s.WellFormed) (hw : Writes s t index slot)
    (hsize : t.slots.size ≤ capacity) (hnodup : t.free.Nodup) (hothers : ∀ i, i ≠ index → (i ∈ t.free ↔ i ∈ s.free))
    (hwaits : index ∈ t.free → slot.path = none)
    (hvacant : slot.path = none → index ∈ t.free ∨ slot.generation.next? = none) (hlive : t.live = t.occupied) :
    t.WellFormed where
  size_le := hsize
  nodup := hnodup
  vacant i hmem := by
    by_cases hi : i = index
    · subst hi
      refine ⟨slot.generation, ?_⟩
      rw [hw.at_index, ← hwaits hmem]
    · rw [hw.at_other hi]
      exact hs.vacant i ((hothers i hi).mp hmem)
  retired i g hslot := by
    by_cases hi : i = index
    · subst hi
      rw [hw.at_index] at hslot
      cases hslot
      exact hvacant rfl
    · rw [hw.at_other hi] at hslot
      exact (hs.retired i g hslot).imp_left (hothers i hi).mpr
  live_eq := hlive

/-- The slot of a new path does not wait any more, and all others wait as before. -/
theorem Stored.mem_free (hs : s.WellFormed) (hi : Stored s p h t) :
    h.index ∉ t.free ∧ ∀ i, i ≠ h.index → (i ∈ t.free ↔ i ∈ s.free) := by
  cases hi with
  | @reuse index free slot hfree hslot =>
    have hnodup := hs.nodup
    rw [hfree, List.nodup_cons] at hnodup
    refine ⟨hnodup.1, fun i hne => ?_⟩
    simp [hfree, hne]
  | grow hfree hroom => exact ⟨List.not_mem_nil, fun i _ => by rw [hfree]⟩

theorem Stored.wellFormed (hs : s.WellFormed) (hi : Stored s p h t) : t.WellFormed := by
  have hw := hi.writes
  have hlive := hs.live_eq
  obtain ⟨hout, hothers⟩ := hi.mem_free hs
  cases hi with
  | @reuse index free slot hfree hslot =>
    have hnodup := hs.nodup
    rw [hfree, List.nodup_cons] at hnodup
    obtain ⟨g, hg⟩ := hs.vacant index (by rw [hfree]; exact List.mem_cons_self)
    rw [hslot] at hg
    cases hg
    refine hs.of_writes hw (by simpa using hs.size_le) hnodup.2 hothers (fun hmem => absurd hmem hout)
      (fun hnone => by cases hnone) ?_
    rw [occupied_fill g p free _ hslot, hlive]
  | grow hfree hroom =>
    refine hs.of_writes hw ?_ List.nodup_nil hothers (fun hmem => absurd hmem hout) (fun hnone => by cases hnone) ?_
    · rw [Array.size_push]
      exact hroom
    · simp [occupied, hlive]

theorem Destroyed.wellFormed (hs : s.WellFormed) (hd : Destroyed s h t) : t.WellFormed := by
  have hlive := hs.live_eq
  cases hd with
  | @release p g hp hg =>
    have hslot := find?_eq_some_iff.mp hp
    refine hs.of_writes (writes_set hslot ⟨g, none⟩ _ _) (by simpa using hs.size_le)
      (List.nodup_cons.mpr ⟨hs.notMem_free hp, hs.nodup⟩) ?_ (fun _ => rfl) (fun _ => .inl List.mem_cons_self) ?_
    · intro i hne
      simp [hne]
    · rw [occupied_vacate g _ _ hslot, hlive]
  | @retire p hp hg =>
    have hslot := find?_eq_some_iff.mp hp
    refine hs.of_writes (writes_set hslot ⟨h.generation, none⟩ _ _) (by simpa using hs.size_le) hs.nodup
      (fun _ _ => Iff.rfl) (fun _ => rfl) (fun _ => .inr hg) ?_
    rw [occupied_vacate h.generation _ _ hslot, hlive]

theorem Replaced.wellFormed {axis : Axis} {values : List Coord} (hs : s.WellFormed) (hr : Replaced s h axis values t) :
    t.WellFormed := by
  have hlive := hs.live_eq
  obtain ⟨p, hp⟩ := hr.live
  have hw := hr.writes hp
  cases hr with
  | replace hp' =>
    refine hs.of_writes hw (by simpa using hs.size_le) hs.nodup (fun _ _ => Iff.rfl)
      (fun hmem => absurd hmem (hs.notMem_free hp)) (fun hnone => by cases hnone) ?_
    rw [occupied_exchange h.generation _ _ _ (find?_eq_some_iff.mp hp)]
    exact hlive

/-! ## Counts -/

theorem Stored.live_eq (hi : Stored s p h t) : t.live = s.live + 1 := by
  cases hi <;> rfl

theorem Destroyed.live_eq (hs : s.WellFormed) (hd : Destroyed s h t) : t.live + 1 = s.live := by
  obtain ⟨p, hp⟩ := hd.live
  -- the slot that is vacated was counted
  have hpos := occupied_set s.free s.live (find?_eq_some_iff.mp hp) ⟨h.generation, none⟩
  have hlive := hs.live_eq
  have hsub : t.live = s.live - 1 := by cases hd <;> rfl
  simp only [Option.isSome_some, Option.isSome_none, if_true, Bool.false_eq_true, if_false] at hpos
  omega

theorem Replaced.live_eq {axis : Axis} {values : List Coord} (hr : Replaced s h axis values t) : t.live = s.live := by
  cases hr
  rfl

end Polypath.Store
