/-!
# Handles

A handle names a stored path by the index of its slot and by the slot's generation at the time of storing. Generations
are never zero, so the raw form of a handle, the generation in the high half of a 64-bit word and the index in the low
half, is never below `2 ^ 32`; every other word is the raw form of exactly one handle.
-/

namespace Polypath

/-- The nonzero age of a slot. -/
structure Generation where
  value : UInt32
  ne_zero : value ≠ 0
deriving DecidableEq, Repr

namespace Generation

/-- The age of a new slot. -/
def first : Generation := ⟨1, by decide⟩

/-- The word as an age. -/
def ofWord? (w : UInt32) : Option Generation :=
  if h : w ≠ 0 then some ⟨w, h⟩ else none

/-- The next age; the largest word has none. -/
def next? (g : Generation) : Option Generation :=
  ofWord? (g.value + 1)

end Generation

/-- The name of a stored path. -/
structure Handle where
  index : UInt32
  generation : Generation
deriving DecidableEq, Repr

namespace Handle

/-- The raw word that no handle has. -/
def invalidRaw : UInt64 := 0

/-- The handle as one word. -/
def toRaw (h : Handle) : UInt64 :=
  UInt64.ofNat (h.generation.value.toNat * UInt32.size + h.index.toNat)

/-- The handle that a word stands for. -/
def ofRaw? (raw : UInt64) : Option Handle :=
  (Generation.ofWord? (UInt32.ofNat (raw.toNat / UInt32.size))).map fun generation =>
    ⟨UInt32.ofNat (raw.toNat % UInt32.size), generation⟩

/-- The handle as it is printed. -/
def text (h : Handle) : String := s!"{h.index}v{h.generation.value}"

end Handle

end Polypath
