import Polypath.Proofs.Store.Changes

/-!
# Handles are given out once

A slot gives out its handles in the order of their generations, and none is left out: the next one always has the
generation `upcoming`. Storing a path raises that number by one in one slot (`Stored.upcoming_eq`); destroying a path
does not change it, because a slot that is released has waited for the generation after its own all the time, and one
that is retired waits for a generation that never comes (`Destroyed.upcoming_eq`).

So along any changes (`Reaches`) the handles given out are pairwise different (`Reaches.nodup`), and a handle that was
destroyed is below the `upcoming` of its slot and is never found again (`Reaches.dead`).
-/

namespace Polypath

/-- The next generation is larger by one; words do not wrap around. -/
theorem Generation.toNat_of_next?_eq_some {g g' : Generation} (hg : g.next? = some g') :
    g'.value.toNat = g.value.toNat + 1 := by
  unfold next? ofWord? at hg
  split at hg
  · next hne =>
    cases hg
    have hlt : g.value.toNat + 1 < UInt32.size := by
      have hle : g.value.toNat + 1 ≤ UInt32.size := g.value.toNat_lt
      have hpos : ¬ g.value.toNat + 1 = UInt32.size := by
        intro he
        apply hne
        apply UInt32.toNat_inj.mp
        rw [UInt32.toNat_add, UInt32.toNat_one, he]
        rfl
      omega
    rw [UInt32.toNat_add, UInt32.toNat_one]
    exact Nat.mod_eq_of_lt hlt
  · cases hg

namespace Store

variable {s t u : Store} {h k : Handle} {p : Path}

/-! ## The next handle of a slot -/

/-- The generation of the next handle of a slot: its own if it waits, and one more if not. -/
def upcoming (s : Store) (index : UInt32) : Nat :=
  match s.slots[index.toNat]? with
  | some slot => if index ∈ s.free then slot.generation.value.toNat else slot.generation.value.toNat + 1
  | none => 1

theorem upcoming_of_waiting {index : UInt32} {slot : Slot} (hslot : s.slots[index.toNat]? = some slot)
    (hmem : index ∈ s.free) : s.upcoming index = slot.generation.value.toNat := by
  simp [upcoming, hslot, hmem]

theorem upcoming_of_notMem {index : UInt32} {slot : Slot} (hslot : s.slots[index.toNat]? = some slot)
    (hmem : index ∉ s.free) : s.upcoming index = slot.generation.value.toNat + 1 := by
  simp [upcoming, hslot, hmem]

/-- The slots that are not written, and wait or not as before, have the same next handle. -/
theorem Writes.upcoming_of_ne {index i : UInt32} {slot : Slot} (hw : Writes s t index slot) (hi : i ≠ index)
    (hfree : i ∈ t.free ↔ i ∈ s.free) : t.upcoming i = s.upcoming i := by
  unfold upcoming
  rw [hw.at_other hi]
  simp only [hfree]

/-- If the written slot has the same next handle, then all slots have. -/
theorem Writes.upcoming_eq {index : UInt32} {slot : Slot} (hw : Writes s t index slot)
    (hfree : ∀ i, i ≠ index → (i ∈ t.free ↔ i ∈ s.free)) (hat : t.upcoming index = s.upcoming index) (i : UInt32) :
    t.upcoming i = s.upcoming i := by
  by_cases hi : i = index
  · rw [hi, hat]
  · exact hw.upcoming_of_ne hi (hfree i hi)

theorem WellFormed.upcoming_of_live (hs : s.WellFormed) (hlive : s.find? h = some p) :
    s.upcoming h.index = h.generation.value.toNat + 1 :=
  upcoming_of_notMem (find?_eq_some_iff.mp hlive) (hs.notMem_free hlive)

/-- A new handle is the next one of its slot. -/
theorem Stored.generation_eq (hi : Stored s p h t) : h.generation.value.toNat = s.upcoming h.index := by
  cases hi with
  | @reuse index free slot hfree hslot =>
    have hmem : index ∈ s.free := by
      rw [hfree]
      exact List.mem_cons_self
    exact (upcoming_of_waiting hslot hmem).symm
  | grow hfree hroom =>
    simp [upcoming, UInt32.toNat_ofNat_of_lt' hroom, Generation.first]

/-- Storing uses the next handle of one slot up. -/
theorem Stored.upcoming_eq (hs : s.WellFormed) (hi : Stored s p h t) (i : UInt32) :
    t.upcoming i = if i = h.index then s.upcoming i + 1 else s.upcoming i := by
  obtain ⟨hout, hothers⟩ := hi.mem_free hs
  split
  · next he => rw [he, upcoming_of_notMem hi.writes.at_index hout, hi.generation_eq]
  · next hne => exact hi.writes.upcoming_of_ne hne (hothers i hne)

/-- Destroying gives nothing back: the next handle stays the same. -/
theorem Destroyed.upcoming_eq (hs : s.WellFormed) (hd : Destroyed s h t) (i : UInt32) :
    t.upcoming i = s.upcoming i := by
  cases hd with
  | @release p g hlive hg =>
    have hw := writes_set (find?_eq_some_iff.mp hlive) ⟨g, none⟩ (h.index :: s.free) (s.live - 1)
    refine hw.upcoming_eq (fun i hi => by simp [hi]) ?_ i
    -- The slot is older by one and waits.
    rw [upcoming_of_waiting hw.at_index List.mem_cons_self, hs.upcoming_of_live hlive]
    exact Generation.toNat_of_next?_eq_some hg
  | @retire p hlive hg =>
    have hw := writes_set (find?_eq_some_iff.mp hlive) ⟨h.generation, none⟩ s.free (s.live - 1)
    refine hw.upcoming_eq (fun _ _ => Iff.rfl) ?_ i
    -- The slot is as old as before and still does not wait.
    rw [upcoming_of_notMem hw.at_index (hs.notMem_free hlive), hs.upcoming_of_live hlive]

theorem Replaced.upcoming_eq {axis : Axis} {values : List Coord} (hs : s.WellFormed) (hr : Replaced s h axis values t)
    (i : UInt32) : t.upcoming i = s.upcoming i := by
  obtain ⟨p, hlive⟩ := hr.live
  have hw := hr.writes hlive
  have hfree : t.free = s.free := by
    cases hr
    rfl
  refine hw.upcoming_eq (fun _ _ => by rw [hfree]) ?_ i
  rw [upcoming_of_notMem hw.at_index (hfree ▸ hs.notMem_free hlive), hs.upcoming_of_live hlive]

/-! ## Along a run -/

/-- Changes lead from one store to another and give out handles on the way. -/
inductive Reaches : Store → List Handle → Store → Prop
  | refl {s : Store} : Reaches s [] s
  | stored {s t u : Store} {p : Path} {h : Handle} {handles : List Handle} :
      Stored s p h t → Reaches t handles u → Reaches s (h :: handles) u
  | destroyed {s t u : Store} {h : Handle} {handles : List Handle} :
      Destroyed s h t → Reaches t handles u → Reaches s handles u
  | replaced {s t u : Store} {h : Handle} {axis : Axis} {values : List Coord} {handles : List Handle} :
      Replaced s h axis values t → Reaches t handles u → Reaches s handles u

/-- At most one change, and the handles it gives out. -/
inductive Step (s : Store) : List Handle → Store → Prop
  | same : Step s [] s
  | stored {t : Store} {p : Path} {h : Handle} : Stored s p h t → Step s [h] t
  | destroyed {t : Store} {h : Handle} : Destroyed s h t → Step s [] t
  | replaced {t : Store} {h : Handle} {axis : Axis} {values : List Coord} : Replaced s h axis values t → Step s [] t

theorem Step.reaches {handles : List Handle} (hstep : Step s handles t) : Reaches s handles t := by
  cases hstep with
  | same => exact .refl
  | stored hi => exact .stored hi .refl
  | destroyed hd => exact .destroyed hd .refl
  | replaced hc => exact .replaced hc .refl

namespace Reaches

variable {handles more : List Handle}

theorem trans (hr : Reaches s handles t) (hr' : Reaches t more u) : Reaches s (handles ++ more) u := by
  induction hr with
  | refl => exact hr'
  | stored hi _ ih => exact .stored hi (ih hr')
  | destroyed hd _ ih => exact .destroyed hd (ih hr')
  | replaced hc _ ih => exact .replaced hc (ih hr')

theorem wellFormed (hr : Reaches s handles t) (hs : s.WellFormed) : t.WellFormed := by
  induction hr with
  | refl => exact hs
  | stored hi _ ih => exact ih (hi.wellFormed hs)
  | destroyed hd _ ih => exact ih (hd.wellFormed hs)
  | replaced hc _ ih => exact ih (hc.wellFormed hs)

/-- A handle given out was not below the next handle of its slot. -/
theorem upcoming_le (hr : Reaches s handles t) (hs : s.WellFormed) (hmem : h ∈ handles) :
    s.upcoming h.index ≤ h.generation.value.toNat := by
  induction hr with
  | refl => cases hmem
  | @stored s t u p k handles hi _ ih =>
    rcases List.mem_cons.mp hmem with rfl | hlater
    · exact Nat.le_of_eq hi.generation_eq.symm
    · have hle := ih (hi.wellFormed hs) hlater
      rw [hi.upcoming_eq hs] at hle
      split at hle <;> omega
  | destroyed hd _ ih =>
    rw [← hd.upcoming_eq hs]
    exact ih (hd.wellFormed hs) hmem
  | replaced hc _ ih =>
    rw [← hc.upcoming_eq hs]
    exact ih (hc.wellFormed hs) hmem

/-- **No handle is given out twice.** -/
theorem nodup (hr : Reaches s handles t) (hs : s.WellFormed) : handles.Nodup := by
  induction hr with
  | refl => exact List.nodup_nil
  | @stored s t u p h handles hi hr ih =>
    have ht := hi.wellFormed hs
    refine List.nodup_cons.mpr ⟨fun hmem => ?_, ih ht⟩
    -- A later handle of the same slot is not below what comes after `h`.
    have hle := hr.upcoming_le ht hmem
    rw [hi.upcoming_eq hs, if_pos rfl, ← hi.generation_eq] at hle
    omega
  | destroyed hd _ ih => exact ih (hd.wellFormed hs)
  | replaced hc _ ih => exact ih (hc.wellFormed hs)

/-- Each new slot is one for a handle given out. -/
theorem size_le (hr : Reaches s handles t) : t.slots.size ≤ s.slots.size + handles.length := by
  induction hr with
  | refl => exact Nat.le_refl _
  | @stored s t u p h handles hi _ ih =>
    have hsize : t.slots.size ≤ s.slots.size + 1 := by cases hi <;> simp
    rw [List.length_cons]
    omega
  | @destroyed s t u h handles hd _ ih =>
    have hsize : t.slots.size = s.slots.size := by cases hd <;> simp
    omega
  | @replaced s t u h axis values handles hc _ ih =>
    have hsize : t.slots.size = s.slots.size := by cases hc; simp
    omega

end Reaches

/-! ## Dead handles -/

/-- A handle whose turn is over and that names nothing. -/
structure Dead (s : Store) (h : Handle) : Prop where
  lt_upcoming : h.generation.value.toNat < s.upcoming h.index
  find?_eq : s.find? h = none

theorem Destroyed.dead (hs : s.WellFormed) (hd : Destroyed s h t) : Dead t h where
  lt_upcoming := by
    obtain ⟨p, hlive⟩ := hd.live
    rw [hd.upcoming_eq hs, hs.upcoming_of_live hlive]
    exact Nat.lt_succ_self _
  find?_eq := by rw [hd.find?_eq, if_pos rfl]

/-- A new path comes under another handle. -/
theorem Dead.stored (hk : Dead s k) (hs : s.WellFormed) (hi : Stored s p h t) : Dead t k where
  lt_upcoming := by
    have hlt := hk.lt_upcoming
    rw [hi.upcoming_eq hs]
    split <;> omega
  find?_eq := by
    have hne : k ≠ h := by
      rintro rfl
      exact absurd hi.generation_eq (Nat.ne_of_lt hk.lt_upcoming)
    rw [hi.find?_eq hs, if_neg hne, hk.find?_eq]

theorem Dead.destroyed (hk : Dead s k) (hs : s.WellFormed) (hd : Destroyed s h t) : Dead t k where
  lt_upcoming := by
    rw [hd.upcoming_eq hs]
    exact hk.lt_upcoming
  find?_eq := by rw [hd.find?_eq, hk.find?_eq, ite_self]

theorem Dead.replaced {axis : Axis} {values : List Coord} (hk : Dead s k) (hs : s.WellFormed)
    (hr : Replaced s h axis values t) : Dead t k where
  lt_upcoming := by
    rw [hr.upcoming_eq hs]
    exact hk.lt_upcoming
  find?_eq := by
    obtain ⟨p, hlive⟩ := hr.live
    have hne : k ≠ h := by
      rintro rfl
      rw [hk.find?_eq] at hlive
      cases hlive
    rw [hr.find?_eq hlive, if_neg hne, hk.find?_eq]

/-- **Dead handles stay dead.** -/
theorem Reaches.dead {handles : List Handle} (hr : Reaches s handles t) (hs : s.WellFormed) (hk : Dead s k) :
    Dead t k := by
  induction hr with
  | refl => exact hk
  | stored hi _ ih => exact ih (hi.wellFormed hs) (hk.stored hs hi)
  | destroyed hd _ ih => exact ih (hd.wellFormed hs) (hk.destroyed hs hd)
  | replaced hc _ ih => exact ih (hc.wellFormed hs) (hk.replaced hs hc)

end Store

end Polypath
