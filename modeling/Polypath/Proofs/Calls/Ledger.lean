import Mathlib.Data.List.Nodup
import Mathlib.Logic.Function.Basic
import Polypath.Proofs.Calls.Effects
import Polypath.Proofs.Transfer.Capacity

/-!
# Calls as entries in a ledger

Seen from outside, all that calls share is a map from raw handles to paths, next to the files. A `Ledger` holds this map
and a record of the raw handles that were returned and of those whose paths were destroyed. Every run of calls from a
new process is explained by a ledger (`calls_refine_map`): each reply is the answer that the ledger demands, and the
effect of the answer is entered into the ledger before the next call.

There are only so many slots, and the record shows when they are used up. Every path takes a slot, and so does every raw
handle of the last generation whose path was destroyed (`isLast`): its slot is retired. A path that could be made is
refused when these are as many as there are indices, and at no other time. In a run of fewer calls than there are
indices this does not happen, and the answers do not depend on it.
-/

namespace Polypath.Calls

/-- Whether a raw handle is of the last generation, so that no other can follow it in its slot. -/
def isLast (raw : UInt64) : Bool := 0xffffffff00000000 ≤ raw

/-- The map from raw handles to paths, the files, and what was made and destroyed so far. -/
structure Ledger where
  path? : UInt64 → Option Path
  tree : Files.Tree
  /-- The raw handles returned so far, in order. -/
  returned : List UInt64
  /-- The raw handles whose paths were destroyed. -/
  destroyed : List UInt64

namespace Ledger

/-- The ledger of a new process. -/
def start (tree : Files.Tree) : Ledger := ⟨fun _ => none, tree, [], []⟩

/-- How many paths there are. -/
def live (l : Ledger) : Nat := l.returned.length - l.destroyed.length

/-- How many slots are retired. -/
def retired (l : Ledger) : Nat := l.destroyed.countP isLast

/-- What a ledger has for answers to rest on. -/
def basis (limit : UInt64) (l : Ledger) : Basis :=
  ⟨limit, l.tree, l.path?, l.live + l.retired = Store.capacity, l.live⟩

/-- What answers would rest on if there were always room. -/
def roomyBasis (limit : UInt64) (l : Ledger) : Basis := { l.basis limit with full := False }

/-- The ledger with an effect entered. -/
def enter (l : Ledger) : Effect → Ledger
  | .nothing => l
  | .made raw p => { l with path? := Function.update l.path? raw (some p), returned := l.returned ++ [raw] }
  | .destroyed raw => { l with path? := Function.update l.path? raw none, destroyed := raw :: l.destroyed }
  | .replaced raw p => { l with path? := Function.update l.path? raw (some p) }
  | .wrote tree => { l with tree }

/-- Zero was never returned, no raw handle was returned or destroyed twice, and those that have a path are those that
were returned and not destroyed. -/
structure Sound (l : Ledger) : Prop where
  zero : Handle.invalidRaw ∉ l.returned
  returned_nodup : l.returned.Nodup
  destroyed_nodup : l.destroyed.Nodup
  destroyed_subset : l.destroyed ⊆ l.returned
  held_iff (raw : UInt64) : (l.path? raw).isSome ↔ raw ∈ l.returned ∧ raw ∉ l.destroyed

/-! ## Sound ledgers -/

variable {l : Ledger} {raw : UInt64} {p : Path}

theorem sound_start (tree : Files.Tree) : (start tree).Sound where
  zero := List.not_mem_nil
  returned_nodup := .nil
  destroyed_nodup := .nil
  destroyed_subset := List.Subset.refl []
  held_iff := by simp [start]

theorem Sound.destroyed_le (hl : l.Sound) : l.destroyed.length ≤ l.returned.length :=
  (hl.destroyed_nodup.subperm hl.destroyed_subset).length_le

theorem Sound.made (hl : l.Sound) (hzero : raw ≠ Handle.invalidRaw) (hnew : raw ∉ l.returned) (p : Path) :
    (l.enter (.made raw p)).Sound where
  zero := by simpa [enter, hl.zero] using hzero.symm
  returned_nodup := List.nodup_append.mpr ⟨hl.returned_nodup, List.nodup_singleton raw, by
    rintro k hk _ (_ | ⟨_, ⟨⟩⟩) rfl
    exact hnew hk⟩
  destroyed_nodup := hl.destroyed_nodup
  destroyed_subset := List.subset_append_of_subset_left [raw] hl.destroyed_subset
  held_iff k := by
    by_cases hk : k = raw
    · subst hk
      have hkept : k ∉ l.destroyed := fun hgone => hnew (hl.destroyed_subset hgone)
      simp [enter, hkept]
    · simpa [enter, Function.update_of_ne hk, hk] using hl.held_iff k

theorem Sound.destroyed (hl : l.Sound) (hp : l.path? raw = some p) : (l.enter (.destroyed raw)).Sound := by
  obtain ⟨hreturned, hkept⟩ := (hl.held_iff raw).mp (Option.isSome_of_eq_some hp)
  refine ⟨hl.zero, hl.returned_nodup, hl.destroyed_nodup.cons hkept, ?_, fun k => ?_⟩
  · exact List.cons_subset.mpr ⟨hreturned, hl.destroyed_subset⟩
  · by_cases hk : k = raw
    · subst hk
      simp [enter]
    · simpa [enter, Function.update_of_ne hk, hk] using hl.held_iff k

theorem Sound.replaced (hl : l.Sound) (hp : l.path? raw = some p) (q : Path) : (l.enter (.replaced raw q)).Sound where
  zero := hl.zero
  returned_nodup := hl.returned_nodup
  destroyed_nodup := hl.destroyed_nodup
  destroyed_subset := hl.destroyed_subset
  held_iff k := by
    by_cases hk : k = raw
    · subst hk
      have hheld := (hl.held_iff k).mp (Option.isSome_of_eq_some hp)
      simpa [enter] using hheld
    · simpa [enter, Function.update_of_ne hk] using hl.held_iff k

theorem Sound.wrote (hl : l.Sound) (tree : Files.Tree) : (l.enter (.wrote tree)).Sound :=
  ⟨hl.zero, hl.returned_nodup, hl.destroyed_nodup, hl.destroyed_subset, hl.held_iff⟩

/-- As long as fewer raw handles were returned than there are indices, there is room. -/
theorem Sound.basis_eq (hl : l.Sound) (hfew : l.returned.length < Store.capacity) (limit : UInt64) :
    l.basis limit = l.roomyBasis limit := by
  have hretired : l.retired ≤ l.destroyed.length := List.countP_le_length
  have hdestroyed := hl.destroyed_le
  have hfull : ¬ l.live + l.retired = Store.capacity := by
    unfold live
    omega
  simp only [roomyBasis, basis, hfull]

theorem length_returned_enter (l : Ledger) (effect : Effect) :
    (l.enter effect).returned.length ≤ l.returned.length + 1 := by
  cases effect <;> simp [enter]

end Ledger

/-- A run of calls is explained by a ledger: every reply is an answer that rests on the ledger, and its effect is
entered before the next call. -/
inductive Explained (basis : Ledger → Basis) : Session → Ledger → List Call → Prop
  | done {s : Session} {l : Ledger} : l.Sound → Explained basis s l []
  | call {s : Session} {l : Ledger} {c : Call} {calls : List Call} {effect : Effect} :
      l.Sound → (basis l).Answers c (s.call c).reply effect →
      Explained basis (s.call c).session (l.enter effect) calls → Explained basis s l (c :: calls)

/-- In a run that is short enough, room is not what answers depend on. -/
theorem Explained.roomy {limit : UInt64} {s : Session} {l : Ledger} {calls : List Call}
    (he : Explained (Ledger.basis limit) s l calls) (hshort : l.returned.length + calls.length < Store.capacity) :
    Explained (Ledger.roomyBasis limit) s l calls := by
  induction he with
  | done hl => exact .done hl
  | @call s l c calls effect hl ha _ ih =>
    rw [List.length_cons] at hshort
    have hreturned := l.length_returned_enter effect
    have hbasis := hl.basis_eq (by omega) limit
    exact .call hl (hbasis ▸ ha) (ih (by omega))

/-! ## What the ledger shows of a session -/

namespace Session

variable {s t : Session} {l : Ledger} {limit : UInt64} {effect : Effect}

/-- A ledger shows a session: the same paths and files, and a record of what happened to the store. -/
structure Shows (s : Session) (limit : UInt64) (l : Ledger) : Prop where
  limit_eq : s.format.limit = limit
  tree_eq : s.tree = l.tree
  path?_eq : s.path? = l.path?
  issued : ∃ handles, Store.Reaches .empty handles s.store ∧ l.returned = handles.map Handle.toRaw
  sound : l.Sound
  live_eq : s.store.live = l.live
  retired_eq : s.store.retired = l.retired

theorem Shows.wellFormed (hl : s.Shows limit l) : s.store.WellFormed := by
  obtain ⟨handles, hr, -⟩ := hl.issued
  exact hr.wellFormed Store.wellFormed_empty

/-- The ledger shows whether the store takes another path. -/
theorem Shows.full_iff (hl : s.Shows limit l) :
    (∀ p h t, ¬ s.store.Stored p h t) ↔ l.live + l.retired = Store.capacity := by
  rw [← hl.live_eq, ← hl.retired_eq, ← not_not (a := s.store.live + s.store.retired = Store.capacity),
    ← ne_eq, ← hl.wellFormed.hasRoom_iff]
  constructor
  · intro hfull hroom
    obtain ⟨h, t, hi⟩ := Store.insert_of_hasRoom hl.wellFormed hroom (.empty 0)
    exact hfull _ h t hi
  · intro hfull p h t hi
    cases (Store.insert_eq_ok_iff.mpr hi).symm.trans (Store.insert_of_full hfull p)

/-- What a session has for its answers to rest on stands in the ledger that shows it. -/
theorem Shows.basis_eq (hl : s.Shows limit l) : s.basis = l.basis limit := by
  simp only [Ledger.basis, basis, hl.limit_eq, hl.tree_eq, hl.path?_eq, hl.live_eq, propext hl.full_iff]

end Session

end Polypath.Calls
