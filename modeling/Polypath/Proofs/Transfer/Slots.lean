import Polypath.Proofs.Transfer.Errands

/-!
# Slots, waiting indices and the count

A store keeps three accounts of the same thing: its slots, the indices that wait for a path, and the number of paths. A
double entry among the waiting indices would give one slot to two paths, an entry without a slot would end the program,
and a count that is too low would wrap around. None of this happens, whatever errands the store is sent on from the
beginning and however they end: the accounts fit together (`slots_fit_together`), because each change keeps the store
well formed.
-/

namespace Polypath

/-- Only the largest word has no successor. -/
theorem Generation.toNat_of_next?_eq_none {g : Generation} (hg : g.next? = none) :
    g.value.toNat = UInt32.size - 1 := by
  unfold next? ofWord? at hg
  split at hg
  · cases hg
  · next hzero =>
    have hsum : (g.value.toNat + 1) % UInt32.size = 0 := by
      have hwrap := congrArg UInt32.toNat (not_not.mp hzero)
      rwa [UInt32.toNat_add, UInt32.toNat_one] at hwrap
    have hlt : g.value.toNat < UInt32.size := g.value.toNat_lt
    have hdvd := Nat.le_of_dvd (Nat.succ_pos _) (Nat.dvd_of_mod_eq_zero hsum)
    omega

theorem Generation.one_le (g : Generation) : 1 ≤ g.value.toNat := by
  have hne : g.value.toNat ≠ 0 := fun he => g.ne_zero (UInt32.toNat_inj.mp he)
  omega

namespace Store

variable {s t : Store} {h : Handle} {p : Path}

/-- A slot that holds nothing and does not wait is at the last generation. -/
theorem WellFormed.next?_of_vacant (hs : s.WellFormed) {i : Nat} {slot : Slot} (hslot : s.slots[i]? = some slot)
    (hvacant : slot.path = none) (hidle : ∀ j ∈ s.free, j.toNat ≠ i) : slot.generation.next? = none := by
  obtain ⟨g, path⟩ := slot
  subst hvacant
  -- every slot has an index that is a word
  obtain ⟨hlt, -⟩ := Array.getElem?_eq_some_iff.mp hslot
  have hindex : (UInt32.ofNat i).toNat = i := UInt32.toNat_ofNat_of_lt' (Nat.lt_of_lt_of_le hlt hs.size_le)
  rw [← hindex] at hslot
  rcases hs.retired _ g hslot with hmem | hlast
  · exact absurd hindex (hidle _ hmem)
  · exact hlast

theorem WellFormed.generation_of_vacant (hs : s.WellFormed) {i : Nat} {slot : Slot} (hslot : s.slots[i]? = some slot)
    (hvacant : slot.path = none) (hidle : ∀ j ∈ s.free, j.toNat ≠ i) :
    slot.generation.value.toNat = UInt32.size - 1 :=
  Generation.toNat_of_next?_eq_none (hs.next?_of_vacant hslot hvacant hidle)

/-- A path is refused only when no index waits and every index has a slot. -/
theorem WellFormed.full_of_insert (hs : s.WellFormed) {fault : Fault}
    (hi : (Store.insert p).result s = (.error fault, t)) : s.free = [] ∧ s.slots.size = capacity := by
  have hfull : ¬ s.HasRoom := by
    intro hroom
    obtain ⟨h, t, hstored⟩ := insert_of_hasRoom hs hroom p
    rw [insert_eq_ok_iff.mpr hstored] at hi
    cases hi
  have hle := hs.size_le
  simp only [HasRoom, ne_eq, not_or, not_not, Nat.not_lt] at hfull
  exact ⟨hfull.1, Nat.le_antisymm hle hfull.2⟩

/-- The slot that a new path gets was vacant or not there, and the other slots stay as they are. -/
theorem WellFormed.slots_of_stored (hs : s.WellFormed) (hi : Stored s p h t) :
    (∀ slot, s.slots[h.index.toNat]? = some slot → slot.path = none) ∧
      t.slots[h.index.toNat]? = some ⟨h.generation, some p⟩ ∧
      ∀ i, i ≠ h.index.toNat → t.slots[i]? = s.slots[i]? := by
  refine ⟨fun slot hslot => ?_, hi.writes.at_index, fun i hne => by rw [hi.writes i, if_neg hne]⟩
  -- whatever the slot held would be live under the slot's own handle
  have hnone := hi.find?_before hs (k := ⟨h.index, slot.generation⟩) rfl
  simpa [find?, hslot] using hnone

end Store

namespace Transfer

open Store

/-- **Slots, waiting indices and the count fit together**, whatever errands the store has been sent on from the
beginning, whether they succeeded or failed. Every waiting index waits once and has a vacant slot; a vacant slot that
does not wait is at the last generation; no generation is zero; the count is the number of slots with a path. So storing
a path never looks for a slot that is not there, never takes a slot that holds a path, and destroying one never counts
below zero. -/
theorem slots_fit_together (errands : List Errand) :
    let s := (run .empty errands).2
    s.free.Nodup ∧
      (∀ i ∈ s.free, ∃ slot, s.slots[i.toNat]? = some slot ∧ slot.path = none) ∧
      (∀ (i : Nat) (slot : Slot), s.slots[i]? = some slot → slot.path = none → (∀ j ∈ s.free, j.toNat ≠ i) →
        slot.generation.value.toNat = UInt32.size - 1) ∧
      (∀ slot ∈ s.slots, 1 ≤ slot.generation.value.toNat) ∧
      s.live = s.slots.countP (fun slot => slot.path.isSome) ∧
      (∀ p fault t, (Store.insert p).result s = (.error fault, t) → s.free = [] ∧ s.slots.size = capacity) ∧
      (∀ p h t, (Store.insert p).result s = (.ok h, t) →
        (∀ slot, s.slots[h.index.toNat]? = some slot → slot.path = none) ∧
          t.slots[h.index.toNat]? = some ⟨h.generation, some p⟩ ∧
          ∀ i, i ≠ h.index.toNat → t.slots[i]? = s.slots[i]?) ∧
      ∀ h t, (Store.destroy h).result s = (.ok (), t) → s.live = t.live + 1 := by
  intro s
  have hs : s.WellFormed := (run_reaches _ errands).wellFormed wellFormed_empty
  refine ⟨hs.nodup, fun i hi => ?_, fun i slot => hs.generation_of_vacant, fun slot _ => slot.generation.one_le,
    hs.live_eq, fun p fault t => hs.full_of_insert, fun p h t hi => hs.slots_of_stored (insert_eq_ok_iff.mp hi),
    fun h t hd => ?_⟩
  · obtain ⟨g, hg⟩ := hs.vacant i hi
    exact ⟨_, hg, rfl⟩
  · exact ((destroy_eq_ok_iff.mp hd).live_eq hs).symm

/-- The first slot is at its second generation already. The second one waits, so the next path gets it, and the path in
the first one can be destroyed. -/
theorem slots_fit_together_reuse :
    let s := (run .empty [.request (.create 7), .request (.create 8), .request (.destroy ⟨0, .first⟩),
      .request (.destroy ⟨0, .first⟩), .request (.create 9), .request (.destroy ⟨1, .first⟩)]).2
    s.free = [1] ∧ s.live = 1 ∧ (∀ slot, s.slots[1]? = some slot → slot.path = none) ∧
      ∃ t, (Store.destroy ⟨0, ⟨2, by decide⟩⟩).result s = (.ok (), t) ∧ s.live = t.live + 1 := by
  intro s
  obtain ⟨-, -, -, -, -, -, hinsert, hdestroy⟩ := slots_fit_together [.request (.create 7), .request (.create 8),
    .request (.destroy ⟨0, .first⟩), .request (.destroy ⟨0, .first⟩), .request (.create 9),
    .request (.destroy ⟨1, .first⟩)]
  have hi : (Store.insert (.empty 10)).result s = (.ok ⟨1, ⟨2, by decide⟩⟩,
      ⟨#[⟨⟨2, by decide⟩, some (.empty 9)⟩, ⟨⟨2, by decide⟩, some (.empty 10)⟩], [], 2⟩) := by rfl
  have hd : (Store.destroy ⟨0, ⟨2, by decide⟩⟩).result s =
      (.ok (), ⟨#[⟨⟨3, by decide⟩, none⟩, ⟨⟨2, by decide⟩, none⟩], [0, 1], 0⟩) := by rfl
  exact ⟨by rfl, by rfl, (hinsert _ _ _ hi).1, _, hd, hdestroy _ _ hd⟩

end Transfer

end Polypath
