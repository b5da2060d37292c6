import Mathlib.Data.Finset.Lattice.Fold
import Mathlib.Data.List.Perm.Basic
import Mathlib.Order.Lattice.Nat
import Polypath.Proofs.Transfer.Slots

/-!
# No slot is wasted

A slot holds a path, waits for one, or is retired, so the slots of a store can be counted in these three kinds
(`WellFormed.size_eq`). A new slot is made only while none waits, which is while every slot that is not retired holds a
path: the slots that are not retired are never more than the paths that were held at once (`Step.size_le`, and along a
run `size_le_peak`). The store is full when paths and retired slots take all indices (`WellFormed.hasRoom_iff`). The
main statement is `no_slot_is_wasted`.
-/

namespace Polypath

open Outcome

/-- If each element of a list is of one of three kinds, the kinds together make up the list. -/
theorem length_eq_countP_of_kinds {α : Type} {l : List α} {a b c : α → Bool}
    (hkinds : ∀ x ∈ l, (a x).toNat + (b x).toNat + (c x).toNat = 1) :
    l.length = l.countP a + l.countP b + l.countP c := by
  induction l with
  | nil => rfl
  | cons x l ih =>
    have hx := hkinds x List.mem_cons_self
    have hl := ih fun y hy => hkinds y (List.mem_cons_of_mem x hy)
    have hcount (d : α → Bool) : (x :: l).countP d = l.countP d + (d x).toNat := by
      cases hd : d x <;> simp [hd]
    rw [List.length_cons, hl, hcount a, hcount b, hcount c]
    omega

namespace Store

variable {s t : Store} {handles : List Handle}

/-! ## Three kinds of slots -/

/-- Whether an index waits for a path. -/
def waits (s : Store) (i : Nat) : Bool := (s.free.map UInt32.toNat).contains i

/-- Whether a slot is retired: it holds nothing, is at the last generation and does not wait. -/
def isRetired (s : Store) (slot : Slot) (i : Nat) : Bool :=
  slot.path.isNone && slot.generation.next?.isNone && !s.waits i

/-- The number of retired slots. -/
def retired (s : Store) : Nat := s.slots.toList.zipIdx.countP fun (slot, i) => s.isRetired slot i

theorem waits_iff {i : Nat} : s.waits i = true ↔ ∃ j ∈ s.free, j.toNat = i := by
  simp [waits]

theorem mem_zipIdx_slots {slot : Slot} {i : Nat} : (slot, i) ∈ s.slots.toList.zipIdx ↔ s.slots[i]? = some slot := by
  rw [List.mk_mem_zipIdx_iff_getElem?, Array.getElem?_toList]

theorem countP_holding (s : Store) : (s.slots.toList.zipIdx.countP fun (slot, _) => slot.path.isSome) = s.occupied := by
  calc (s.slots.toList.zipIdx.countP fun (slot, _) => slot.path.isSome)
      = (s.slots.toList.zipIdx.map Prod.fst).countP fun slot => slot.path.isSome := by
        rw [List.countP_map]
        rfl
    _ = s.slots.toList.countP fun slot => slot.path.isSome := by rw [List.zipIdx_map_fst]
    _ = s.occupied := Array.countP_toList

/-- Every waiting index is the index of one slot. -/
theorem WellFormed.countP_waits (hs : s.WellFormed) :
    (s.slots.toList.zipIdx.countP fun (_, i) => s.waits i) = s.free.length := by
  have hperm : ((s.slots.toList.zipIdx.filter fun (_, i) => s.waits i).map Prod.snd).Perm
      (s.free.map UInt32.toNat) := by
    rw [List.perm_ext_iff_of_nodup]
    · intro i
      simp only [List.mem_map, List.mem_filter, Prod.exists, exists_eq_right, mem_zipIdx_slots, waits_iff]
      constructor
      · rintro ⟨_, -, hwaits⟩
        exact hwaits
      · rintro ⟨j, hj, rfl⟩
        obtain ⟨g, hg⟩ := hs.vacant j hj
        exact ⟨_, hg, j, hj, rfl⟩
    · have hindices : (s.slots.toList.zipIdx.map Prod.snd).Nodup := by
        rw [List.zipIdx_map_snd]
        exact List.nodup_range'
      exact hindices.sublist (List.filter_sublist.map _)
    · exact hs.nodup.map fun i j hij => UInt32.toNat_inj.mp hij
  rw [List.countP_eq_length_filter, ← List.length_map Prod.snd, hperm.length_eq, List.length_map]

/-- **A census.** Every slot holds a path, waits for one or is retired. -/
theorem WellFormed.size_eq (hs : s.WellFormed) : s.slots.size = s.live + s.free.length + s.retired := by
  rw [hs.live_eq, ← countP_holding, ← hs.countP_waits, Store.retired, ← Array.length_toList,
    ← List.length_zipIdx (l := s.slots.toList) (i := 0)]
  apply length_eq_countP_of_kinds
  rintro ⟨slot, i⟩ hmem
  have hslot := mem_zipIdx_slots.mp hmem
  cases hwaits : s.waits i with
  | true =>
    have hvacant : slot.path = none := by
      obtain ⟨j, hj, rfl⟩ := waits_iff.mp hwaits
      obtain ⟨g, hg⟩ := hs.vacant j hj
      rw [hslot] at hg
      cases hg
      rfl
    simp [isRetired, hwaits, hvacant]
  | false =>
    cases hpath : slot.path with
    | some p => simp [isRetired, hpath, hwaits]
    | none =>
      have hlast : slot.generation.next? = none := by
        apply hs.next?_of_vacant hslot hpath
        intro j hj hij
        rw [waits_iff.mpr ⟨j, hj, hij⟩] at hwaits
        cases hwaits
      simp [isRetired, hpath, hwaits, hlast]

theorem WellFormed.retired_eq_zero (hs : s.WellFormed) (hfree : s.free = []) (hlive : s.live = s.slots.size) :
    s.retired = 0 := by
  have hsize := hs.size_eq
  rw [hfree, hlive, List.length_nil] at hsize
  omega

/-! ## Changes and the census -/

/-- If the slots that are not retired are at most `n`, they are at most `n` or at most the paths held after a change: a
new slot is made only when every slot that is not retired holds a path. -/
theorem Step.size_le (hs : s.WellFormed) (hstep : Step s handles t) {n : Nat} (hn : s.slots.size ≤ n + s.retired) :
    t.slots.size ≤ max n t.live + t.retired := by
  have hsize := hs.size_eq
  have hsize' := (hstep.reaches.wellFormed hs).size_eq
  cases hstep with
  | same => omega
  | stored hi =>
    cases hi with
    | reuse hfree hslot =>
      simp only [hfree, List.length_cons, Array.size_setIfInBounds] at hsize hsize' ⊢
      omega
    | grow hfree hroom =>
      simp only [List.length_nil] at hsize' ⊢
      omega
  | destroyed hd =>
    have hlive := hd.live_eq hs
    cases hd with
    | release hp hg =>
      simp only [List.length_cons, Array.size_setIfInBounds] at hsize' hlive ⊢
      omega
    | retire hp hg =>
      simp only [Array.size_setIfInBounds] at hsize' hlive ⊢
      omega
  | replaced hc =>
    cases hc
    simp only [Array.size_setIfInBounds] at hsize' ⊢
    omega

theorem Stored.retired_eq {p : Path} {h : Handle} (hs : s.WellFormed) (hi : Stored s p h t) :
    t.retired = s.retired := by
  have hsize := hs.size_eq
  have hsize' := (hi.wellFormed hs).size_eq
  cases hi with
  | reuse hfree hslot =>
    simp only [hfree, List.length_cons, Array.size_setIfInBounds] at hsize hsize' ⊢
    omega
  | grow hfree hroom =>
    simp only [hfree, List.length_nil, Array.size_push] at hsize hsize' ⊢
    omega

/-- A slot is retired when the path is destroyed whose handle is of the last generation. -/
theorem Destroyed.retired_eq {h : Handle} (hs : s.WellFormed) (hd : Destroyed s h t) :
    t.retired = s.retired + h.generation.next?.isNone.toNat := by
  have hsize := hs.size_eq
  have hsize' := (hd.wellFormed hs).size_eq
  have hlive := hd.live_eq hs
  cases hd with
  | release hp hg =>
    simp only [hg, Option.isNone_some, Bool.toNat_false, List.length_cons, Array.size_setIfInBounds] at hsize' hlive ⊢
    omega
  | retire hp hg =>
    simp only [hg, Option.isNone_none, Bool.toNat_true, Array.size_setIfInBounds] at hsize' hlive ⊢
    omega

theorem Replaced.retired_eq {h : Handle} {axis : Axis} {values : List Coord} (hs : s.WellFormed)
    (hr : Replaced s h axis values t) : t.retired = s.retired := by
  have hsize := hs.size_eq
  have hsize' := (hr.wellFormed hs).size_eq
  cases hr
  simp only [Array.size_setIfInBounds] at hsize' ⊢
  omega

/-! ## Room and the census -/

/-- A store has room until paths and retired slots take all indices. -/
theorem WellFormed.hasRoom_iff (hs : s.WellFormed) : s.HasRoom ↔ s.live + s.retired ≠ capacity := by
  have hsize := hs.size_eq
  have hle := hs.size_le
  unfold HasRoom
  cases hfree : s.free with
  | nil =>
    rw [hfree, List.length_nil] at hsize
    simp only [ne_eq, not_true_eq_false, false_or]
    omega
  | cons index free =>
    rw [hfree, List.length_cons] at hsize
    simp only [ne_eq, reduceCtorEq, not_false_eq_true, true_or, true_iff]
    omega

/-- A new path is refused for want of room, and for nothing else. -/
theorem WellFormed.perform_eq_error_iff (hs : s.WellFormed) {r : Request} (hr : r.makes = true) {fault : Fault} :
    s.perform r = (.error fault, t) ↔ fault = .exhausted ∧ t = s ∧ ¬ s.HasRoom := by
  by_cases hroom : s.HasRoom
  · have hok (p : Path) : ∃ h u, (Store.insert p).result s = (.ok h, u) := by
      obtain ⟨h, u, hi⟩ := insert_of_hasRoom hs hroom p
      exact ⟨h, u, insert_eq_ok_iff.mpr hi⟩
    cases r with
    | create id =>
      obtain ⟨h, u, hi⟩ := hok (.empty id)
      simp [perform, Request.act, create, hi, hroom]
    | insert p =>
      obtain ⟨h, u, hi⟩ := hok p
      simp [perform, Request.act, hi, hroom]
    | destroy | set | replace | get | id | count | coords | item | contains | live => cases hr
  · rw [perform_of_full hr hroom]
    simp [hroom, eq_comm]

end Store

namespace Transfer

open Store

/-! ## Along a run -/

/-- The largest number of paths held at once while errands are carried out, before the first, after the last or in
between. -/
def peak (errands : List Errand) : Nat :=
  (Finset.range (errands.length + 1)).sup fun n => (run .empty (errands.take n)).2.live

theorem peak_append_singleton (errands : List Errand) (e : Errand) :
    peak (errands ++ [e]) = max (peak errands) (run .empty (errands ++ [e])).2.live := by
  have hlength : (errands ++ [e]).length = errands.length + 1 := by simp
  have hbefore : ∀ n ∈ Finset.range (errands.length + 1),
      (run .empty ((errands ++ [e]).take n)).2.live = (run .empty (errands.take n)).2.live := by
    intro n hn
    rw [List.take_append_of_le_length (Nat.le_of_lt_succ (Finset.mem_range.mp hn))]
  have hlast : (errands ++ [e]).take (errands.length + 1) = errands ++ [e] := by
    rw [← hlength, List.take_length]
  rw [peak, hlength, Finset.range_add_one, Finset.sup_insert, Finset.sup_congr rfl hbefore, hlast, max_comm]
  rfl

/-- **Along a run**, the slots that are not retired are at most as many as the paths that were held at once. -/
theorem size_le_peak (errands : List Errand) :
    (run .empty errands).2.slots.size ≤ peak errands + (run .empty errands).2.retired := by
  -- from the end: the last errand is a step from what the others lead to
  induction errands using List.reverseRecOn with
  | nil => exact Nat.zero_le _
  | append_singleton errands e ih =>
    have hs := (run_reaches _ errands).wellFormed wellFormed_empty
    have hle := (run_singleton_step (run .empty errands).2 e).size_le hs ih
    rw [peak_append_singleton, run_append]
    exact hle

/-- **No slot is wasted**, whatever errands the store has been sent on from the beginning. Its slots are those that hold
a path, those that wait for one and those that are retired. Apart from the retired ones there are at most as many as
there were paths at once. A new path is refused exactly when paths and retired slots take all indices, always for that
reason, and then nothing changes. -/
theorem no_slot_is_wasted (errands : List Errand) :
    let s := (run .empty errands).2
    s.slots.size = s.live + s.free.length + s.retired ∧
      s.slots.size ≤ peak errands + s.retired ∧
      ∀ r : Request, r.makes = true →
        (∀ fault t, s.perform r = (.error fault, t) ↔
          fault = .exhausted ∧ t = s ∧ s.live + s.retired = capacity) ∧
          (s.live + s.retired = capacity → run s [.request r] = ([], s)) := by
  intro s
  have hs : s.WellFormed := (run_reaches _ errands).wellFormed wellFormed_empty
  refine ⟨hs.size_eq, size_le_peak errands, fun r hr => ?_⟩
  have herror (fault : Store.Fault) (t : Store) : s.perform r = (.error fault, t) ↔
      fault = .exhausted ∧ t = s ∧ s.live + s.retired = capacity := by
    rw [hs.perform_eq_error_iff hr, hs.hasRoom_iff, not_not]
  refine ⟨herror, fun hfull => ?_⟩
  have hrefused : r.act.result s = (.error .exhausted, s) := (herror .exhausted s).mpr ⟨rfl, rfl, hfull⟩
  simp [run, carryOut, Errand.act, hrefused]

/-- While nothing is destroyed, every new path gets a new slot, up to the last index. -/
theorem slots_of_creates (id : UInt32) {n : Nat} (hn : n ≤ capacity) :
    let s := (run .empty (List.replicate n (.request (.create id)))).2
    s.free = [] ∧ s.live = n ∧ s.slots.size = n := by
  induction n with
  | zero => exact ⟨rfl, rfl, rfl⟩
  | succ n ih =>
    obtain ⟨hfree, hlive, hsize⟩ := ih (Nat.le_of_succ_le hn)
    rw [List.replicate_succ', run_append]
    generalize (run .empty (List.replicate n (.request (.create id)))).2 = s at hfree hlive hsize
    have hroom : s.slots.size < capacity := by
      rw [hsize]
      exact hn
    simp [run, carryOut, Errand.act, Request.act, Store.create, result_insert_grow hfree hroom, hlive, hsize]

/-- A store can be filled to the last index, and then no slot is retired. -/
theorem full_of_creates (id : UInt32) :
    let s := (run .empty (List.replicate capacity (.request (.create id)))).2
    s.live = capacity ∧ s.retired = 0 := by
  obtain ⟨hfree, hlive, hsize⟩ := slots_of_creates id (Nat.le_refl capacity)
  have hs := (run_reaches .empty (List.replicate capacity (.request (.create id)))).wellFormed wellFormed_empty
  exact ⟨hlive, hs.retired_eq_zero hfree (hlive.trans hsize.symm)⟩

theorem not_hasRoom_of_creates (id : UInt32) :
    ¬ (run .empty (List.replicate capacity (.request (.create id)))).2.HasRoom := by
  obtain ⟨hlive, hretired⟩ := full_of_creates id
  have hs := (run_reaches .empty (List.replicate capacity (.request (.create id)))).wellFormed wellFormed_empty
  exact fun hroom => hs.hasRoom_iff.mp hroom (congrArg₂ (· + ·) hlive hretired)

/-- A new path does not disturb one that is there, whether it is let in or not. -/
theorem find?_of_create {s : Store} {h : Handle} {p : Path} (hs : s.WellFormed) (hp : s.find? h = some p)
    (id : UInt32) : (run s [.request (.create id)]).2.find? h = some p := by
  rcases hresult : (Store.insert (.empty id)).result s with ⟨fault | k, t⟩
  · cases clean_insert _ _ _ _ hresult
    simpa [run, carryOut, Errand.act, Request.act, Store.create, hresult] using hp
  · have hstored := insert_eq_ok_iff.mp hresult
    have hne : h ≠ k := by
      rintro rfl
      rw [hstored.find?_before hs rfl] at hp
      cases hp
    simp [run, carryOut, Errand.act, Request.act, Store.create, hresult, hstored.find?_eq hs, hne, hp]

theorem find?_of_creates {s : Store} {h : Handle} {p : Path} (hs : s.WellFormed) (hp : s.find? h = some p)
    (id : UInt32) (n : Nat) : (run s (List.replicate n (.request (.create id)))).2.find? h = some p := by
  induction n generalizing s with
  | zero => exact hp
  | succ n ih =>
    rw [List.replicate_succ, ← List.singleton_append, run_append]
    exact ih ((run_reaches s _).wellFormed hs) (find?_of_create hs hp id)

/-- The first path of a store is still there when the store is full. -/
theorem find?_of_all_creates (id : UInt32) :
    (run .empty (List.replicate capacity (.request (.create id)))).2.find? ⟨0, .first⟩ = some (.empty id) := by
  obtain ⟨n, hn⟩ : ∃ n, capacity = n + 1 := ⟨UInt32.size - 1, by decide⟩
  rw [hn, List.replicate_succ, ← List.singleton_append, run_append]
  exact find?_of_creates ((run_reaches .empty _).wellFormed wellFormed_empty) (by rfl) id n

/-- Two slots serve three paths: the third gets the slot of one that was destroyed, and the other slot waits, so that a
fourth is let in. And where all indices are taken, the next path is refused and changes nothing. -/
theorem no_slot_is_wasted_from_reuse_to_full :
    let reuse : List Errand := [.request (.create 7), .request (.create 8), .request (.destroy ⟨0, .first⟩),
      .request (.destroy ⟨1, .first⟩), .request (.create 9)]
    let s := (run .empty reuse).2
    let full := (run .empty (List.replicate capacity (.request (.create 7)))).2
    (s.live = 1 ∧ s.free = [0] ∧ s.slots.size = 2 ∧ s.slots.size = s.live + s.free.length + s.retired ∧
      s.slots.size ≤ peak reuse + s.retired ∧ ∀ fault t, s.perform (.create 10) ≠ (.error fault, t)) ∧
    full.perform (.create 8) = (.error .exhausted, full) ∧ run full [.request (.create 8)] = ([], full) := by
  intro reuse s full
  constructor
  · obtain ⟨hcensus, hpeak, hnew⟩ := no_slot_is_wasted reuse
    refine ⟨by rfl, by rfl, by rfl, hcensus, hpeak, fun fault t hfail => ?_⟩
    obtain ⟨-, -, hfull⟩ := ((hnew (.create 10) rfl).1 fault t).mp hfail
    exact absurd hfull (by decide +kernel)
  · obtain ⟨hlive, hretired⟩ := full_of_creates 7
    obtain ⟨-, -, hnew⟩ := no_slot_is_wasted (List.replicate capacity (.request (.create 7)))
    obtain ⟨herror, hsame⟩ := hnew (.create 8) rfl
    have hfull := congrArg₂ (· + ·) hlive hretired
    exact ⟨(herror .exhausted _).mpr ⟨rfl, rfl, hfull⟩, hsame hfull⟩

end Transfer

end Polypath
