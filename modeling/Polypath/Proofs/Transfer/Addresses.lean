import Mathlib.Data.Set.Function
import Polypath.Proofs.Store.RawHandles
import Polypath.Proofs.Transfer.Errands

/-!
# Raw words as addresses

Outside of a store, paths are addressed by raw words. A word addresses the path of the handle that it stands for, and by
it the slot that holds this path (`Store.slotOf?`). A slot holds one path under one handle, so no two words address one
slot at a time (`Store.eq_of_slotOf?`), and what is done about one handle is not noticed under any other
(`find?_of_carryOut`, `Store.pathOf?_eq`). Together with the packing of handles into words, which loses nothing and
leaves no word from `2 ^ 32` on unused, this is `raw_words_are_addresses`.
-/

namespace Polypath

open Journal Outcome

namespace Store

variable {s t : Store} {h k : Handle} {raw raw' : UInt64} {i : UInt32}

/-- The path that a raw word addresses. -/
def pathOf? (s : Store) (raw : UInt64) : Option Path := (Handle.ofRaw? raw).bind s.find?

/-- The slot that holds the path which a raw word addresses. -/
def slotOf? (s : Store) (raw : UInt64) : Option UInt32 :=
  (Handle.ofRaw? raw).bind fun h => (s.find? h).map fun _ => h.index

theorem slotOf?_eq_some_iff :
    s.slotOf? raw = some i ↔ ∃ h, raw = h.toRaw ∧ ∃ p, s.find? h = some p ∧ h.index = i := by
  simp only [slotOf?, Option.bind_eq_some_iff, Option.map_eq_some_iff, Handle.ofRaw?_eq_some_iff]

/-- No two words address one slot. -/
theorem eq_of_slotOf? (hraw : s.slotOf? raw = some i) (hraw' : s.slotOf? raw' = some i) : raw = raw' := by
  obtain ⟨h, rfl, p, hp, rfl⟩ := slotOf?_eq_some_iff.mp hraw
  obtain ⟨k, rfl, q, hq, hindex⟩ := slotOf?_eq_some_iff.mp hraw'
  by_contra hne
  have hkh : k ≠ h := fun heq => hne (congrArg Handle.toRaw heq.symm)
  rw [find?_eq_none_of_live hp hindex hkh] at hq
  cases hq

/-- When a slot that one word has addressed is addressed by another, the first addresses nothing: a word addresses the
same slot at all times. -/
theorem slotOf?_eq_none (hraw : s.slotOf? raw = some i) (hraw' : t.slotOf? raw' = some i) (hne : raw ≠ raw') :
    t.slotOf? raw = none := by
  cases hj : t.slotOf? raw with
  | none => rfl
  | some j =>
    obtain ⟨h, rfl, -, -, rfl⟩ := slotOf?_eq_some_iff.mp hraw
    obtain ⟨k, hk, -, -, rfl⟩ := slotOf?_eq_some_iff.mp hj
    obtain rfl := Handle.toRaw_injective hk
    exact absurd (eq_of_slotOf? hj hraw') hne

/-- A new path is addressed by the raw form of its handle. -/
theorem Stored.addressed {p : Path} (hs : s.WellFormed) (hi : Stored s p h t) :
    t.pathOf? h.toRaw = some p ∧ t.slotOf? h.toRaw = some h.index := by
  have hp : t.find? h = some p := by rw [hi.find?_eq hs, if_pos rfl]
  refine ⟨?_, slotOf?_eq_some_iff.mpr ⟨h, rfl, p, hp, rfl⟩⟩
  rw [pathOf?, Handle.ofRaw?_toRaw, Option.bind_some, hp]

/-- A change that only one handle notices is noticed under no word but that handle's own. -/
theorem pathOf?_eq (hfind : ∀ k, k ≠ h → t.find? k = s.find? k) (hraw : raw ≠ h.toRaw) :
    t.pathOf? raw = s.pathOf? raw := by
  unfold pathOf?
  cases hk : Handle.ofRaw? raw with
  | none => rfl
  | some k =>
    have hne : k ≠ h := fun heq => hraw (heq ▸ Handle.ofRaw?_eq_some_iff.mp hk)
    exact hfind k hne

/-- A request about one handle is not noticed under any other. -/
theorem find?_of_perform {r : Request} {a : Answer} (hr : s.perform r = (.ok a, t)) (hsubject : r.subject? = some h)
    (hk : k ≠ h) : t.find? k = s.find? k := by
  cases r with
  | create | insert | contains | live => cases hsubject
  | destroy h' =>
    cases hsubject
    simp only [perform, Request.act, Act.result_bind, Act.chain_eq_ok_iff, Act.result_pure] at hr
    obtain ⟨_, t, hd, ⟨⟩⟩ := hr
    rw [(destroy_eq_ok_iff.mp hd).find?_eq, if_neg hk]
  | set h' axis values declared =>
    cases hsubject
    simp only [perform, Request.act, Act.result_bind, Act.chain_eq_ok_iff, Act.result_pure] at hr
    obtain ⟨_, t, hset, ⟨⟩⟩ := hr
    obtain ⟨-, hc⟩ := set_eq_ok_iff.mp hset
    obtain ⟨p, hp⟩ := hc.live
    rw [hc.find?_eq hp, if_neg hk]
  | replace h' axis values =>
    cases hsubject
    simp only [perform, Request.act, Act.result_bind, Act.chain_eq_ok_iff, Act.result_pure] at hr
    obtain ⟨_, t, hreplace, ⟨⟩⟩ := hr
    have hc := replace_eq_ok_iff.mp hreplace
    obtain ⟨p, hp⟩ := hc.live
    rw [hc.find?_eq hp, if_neg hk]
  | get | id | count | coords | item =>
    simp only [perform, Request.act, Act.result_bind, Act.chain_eq_ok_iff, Act.result_ask, Act.result_pure,
      Prod.mk.injEq] at hr
    obtain ⟨_, _, ⟨-, rfl⟩, -, rfl⟩ := hr
    rfl

end Store

namespace Transfer

variable {s t : Store} {h k : Handle}

/-- An errand about one handle is not noticed under any other. -/
theorem find?_of_carryOut {e : Errand} {y : Yield} (he : carryOut s e = (.ok y, t)) (hsubject : e.subject? = some h)
    (hk : k ≠ h) : t.find? k = s.find? k := by
  cases e with
  | request r =>
    simp only [carryOut, Errand.act, Act.result_bind, Act.chain_eq_ok_iff, Act.adapt_eq_ok_iff, Act.result_pure] at he
    obtain ⟨a, t, hr, ⟨⟩⟩ := he
    exact Store.find?_of_perform hr hsubject hk
  | serialize | serializeText | serializeFile =>
    simp only [carryOut, Errand.act, Act.result_bind, Act.chain_eq_ok_iff, Act.result_look, Act.result_pure,
      Prod.mk.injEq] at he
    obtain ⟨_, _, ⟨-, rfl⟩, -, rfl⟩ := he
    rfl
  | deserialize | deserializeText | deserializeFile => cases hsubject

theorem find?_of_run {e : Errand} (hsubject : e.subject? = some h) (hk : k ≠ h) :
    (run s [e]).2.find? k = s.find? k := by
  unfold run
  split
  · next he => exact find?_of_carryOut he hsubject hk
  · next he => rw [carryOut_error he, run]

/-- **Raw words are addresses.** An index and a generation that is not zero are packed into a word by a shift and a
disjunction; the word is not zero, and the handle is had back from it. The words that stand for no handle are those
below `2 ^ 32`; every other one stands for one handle, with the halves of the word as generation and index, whose raw
form it is. So the raw forms of the handles that stores can give out are different for different handles, and a store
gives out no raw form twice and none below `2 ^ 32`. After any errands, a new path is addressed by the raw form that is
given out for it. No two words address the path in one slot; one that addresses the slot later does so when the other
addresses nothing any more; and what is done about the path that one word addresses is not noticed under any other
word. -/
theorem raw_words_are_addresses :
    (∀ (index generation : UInt32) (hg : generation ≠ 0),
      let h : Handle := ⟨index, generation, hg⟩
      h.toRaw = generation.toUInt64 <<< 32 ||| index.toUInt64 ∧ Handle.ofRaw? h.toRaw = some h ∧ h.toRaw ≠ 0) ∧
    (∀ raw : UInt64, (Handle.ofRaw? raw = none ↔ raw.toNat < 2 ^ 32) ∧
      (2 ^ 32 ≤ raw.toNat → ∃ h, Handle.ofRaw? raw = some h ∧ h.toRaw = raw ∧
        h.generation.value = (raw >>> 32).toUInt32 ∧ h.index = raw.toUInt32)) ∧
    Set.InjOn Handle.toRaw {h | ∃ errands, h ∈ (run .empty errands).1} ∧
    ∀ errands, ((run .empty errands).1.map Handle.toRaw).Nodup ∧
      (∀ h ∈ (run .empty errands).1, 2 ^ 32 ≤ h.toRaw.toNat) ∧
      let s := (run .empty errands).2
      (∀ p h t, (Store.insert p).result s = (.ok h, t) → t.pathOf? h.toRaw = some p ∧ t.slotOf? h.toRaw = some h.index) ∧
      ∀ raw raw', raw ≠ raw' →
        (∀ i, s.slotOf? raw = some i → s.slotOf? raw' ≠ some i ∧
          ∀ later, (run s later).2.slotOf? raw' = some i → (run s later).2.slotOf? raw = none) ∧
        ∀ h e, Handle.ofRaw? raw = some h → Errand.subject? e = some h →
          (run s [e]).2.pathOf? raw' = s.pathOf? raw' := by
  refine ⟨?_, ?_, Handle.toRaw_injective.injOn, ?_⟩
  · intro index generation hg
    exact ⟨Handle.toRaw_eq_or _, Handle.ofRaw?_toRaw _, Handle.toRaw_ne_invalidRaw _⟩
  · intro raw
    refine ⟨Handle.ofRaw?_eq_none_iff, fun hraw => ?_⟩
    have hsome : Handle.ofRaw? raw ≠ none := fun hnone => Nat.not_lt.mpr hraw (Handle.ofRaw?_eq_none_iff.mp hnone)
    obtain ⟨h, hh⟩ := Option.ne_none_iff_exists'.mp hsome
    exact ⟨h, hh, (Handle.ofRaw?_eq_some_iff.mp hh).symm, Handle.halves_of_ofRaw? hh⟩
  · intro errands
    have hreaches := run_reaches .empty errands
    have hs := hreaches.wellFormed Store.wellFormed_empty
    refine ⟨(hreaches.nodup Store.wellFormed_empty).map Handle.toRaw_injective, fun h _ => h.size_le_toRaw,
      fun p h t hi => (Store.insert_eq_ok_iff.mp hi).addressed hs, ?_⟩
    intro raw raw' hne
    constructor
    · intro i hi
      exact ⟨fun hi' => hne (Store.eq_of_slotOf? hi hi'), fun later hi' => Store.slotOf?_eq_none hi hi' hne⟩
    · intro h e hraw hsubject
      have hraw' : raw' ≠ h.toRaw := fun heq => hne ((Handle.ofRaw?_eq_some_iff.mp hraw).trans heq.symm)
      exact Store.pathOf?_eq (fun k hk => find?_of_run hsubject hk) hraw'

/-- The largest index at the largest generation is the largest word, and the largest word that stands for no handle has
only ones in its low half. The slot of a destroyed path is addressed by a new word; the old one addresses nothing, and
when the new path is destroyed the path in the other slot is still addressed. -/
theorem raw_words_are_addresses_reuse :
    let last : Handle := ⟨4294967295, 4294967295, by decide⟩
    let errands : List Errand :=
      [.request (.create 7), .request (.create 8), .request (.destroy ⟨0, .first⟩), .request (.create 9)]
    let s := (run .empty errands).2
    (last.toRaw = 18446744073709551615 ∧ Handle.ofRaw? last.toRaw = some last) ∧
      Handle.ofRaw? 4294967295 = none ∧
      ((run .empty errands).1.map Handle.toRaw = [4294967296, 4294967297, 8589934592] ∧
        ((run .empty errands).1.map Handle.toRaw).Nodup) ∧
      s.slotOf? 4294967296 = none ∧ s.slotOf? 8589934592 = some 0 ∧ s.slotOf? 4294967297 ≠ some 0 ∧
      (run s [.request (.destroy ⟨0, ⟨2, by decide⟩⟩)]).2.pathOf? 4294967297 = some (.empty 8) := by
  intro last errands s
  obtain ⟨hpack, hunpack, -, hruns⟩ := raw_words_are_addresses
  obtain ⟨hnodup, -, -, haddress⟩ := hruns errands
  have hnew : s.slotOf? 8589934592 = some 0 := by decide +kernel
  obtain ⟨hslots, hpaths⟩ := haddress 8589934592 4294967297 (by decide)
  refine ⟨⟨by decide +kernel, (hpack _ _ _).2.1⟩, ((hunpack _).1.mpr (by decide)), ⟨by decide +kernel, hnodup⟩,
    by decide +kernel, hnew, (hslots 0 hnew).1, ?_⟩
  refine (hpaths ⟨0, ⟨2, by decide⟩⟩ (.request (.destroy ⟨0, ⟨2, by decide⟩⟩)) ?_ rfl).trans ?_
  · decide +kernel
  · decide +kernel

end Transfer

end Polypath
