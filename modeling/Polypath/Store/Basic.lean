import Polypath.Journal.Act

/-!
# Stores of paths

A store keeps paths in slots and gives out handles. A slot whose path is destroyed grows one generation older and is
used again, so that the handle of the destroyed path names nothing any more; a slot at the last generation is retired
instead. `Store.find?` is the view through which all other operations are told: the map from live handles to paths.
What changes a store is an act on it, made of small changes that follow the checks; storing and destroying are told.
-/

namespace Polypath

open Journal

/-- A place for one path. -/
structure Slot where
  generation : Generation
  path : Option Path
deriving DecidableEq, Repr

/-- Slots, the indices of those that wait for a new path (the next one first), and the number of paths held. -/
structure Store where
  slots : Array Slot
  free : List UInt32
  live : Nat
deriving DecidableEq, Repr

namespace Store

/-- The store that holds nothing. -/
def empty : Store := ⟨#[], [], 0⟩

/-- How many slots a store can have: as many as there are indices. -/
def capacity : Nat := UInt32.size

/-! ## Look-up -/

/-- The live path of a handle. -/
def find? (s : Store) (h : Handle) : Option Path :=
  match s.slots[h.index.toNat]? with
  | some slot => if slot.generation = h.generation then slot.path else none
  | none => none

/-- Whether a handle is live. -/
def contains (s : Store) (h : Handle) : Bool := (s.find? h).isSome

/-- The path of a handle that has to be live. -/
def get (s : Store) (h : Handle) : Except Fault Path :=
  match s.find? h with
  | some p => .ok p
  | none => .error (.invalidHandle h)

/-- The number of the path. -/
def id (s : Store) (h : Handle) : Except Fault UInt32 := return (← s.get h).id

/-- One sequence of the path. -/
def coords (s : Store) (h : Handle) (axis : Axis) : Except Fault (List Coord) := return (← s.get h).coords axis

/-- The length of one sequence of the path. -/
def count (s : Store) (h : Handle) (axis : Axis) : Except Fault Nat := return (← s.coords h axis).length

/-- One coordinate of the path. -/
def item (s : Store) (h : Handle) (axis : Axis) (index : Nat) : Except Fault Coord := do
  let values ← s.coords h axis
  match values[index]? with
  | some c => return c
  | none => throw (.indexOutOfBounds axis index values.length)

/-! ## Storing and destroying -/

/-- The store with a slot put at an index that has one. -/
def putSlot (index : UInt32) (slot : Slot) (s : Store) : Store :=
  { s with slots := s.slots.setIfInBounds index.toNat slot }

/-- Puts a path into the slot that waits first or else into a new one. -/
def place (p : Path) : Act Store Fault Handle := do
  match ← Act.read fun s => s.free with
  | index :: free =>
    match ← Act.read fun s => s.slots[index.toNat]? with
    | some slot =>
      Act.change fun s => { s with free }
      Act.change (putSlot index { slot with path := some p })
      return ⟨index, slot.generation⟩
    | none => throw .exhausted
  | [] =>
    let size ← Act.read fun s => s.slots.size
    if size < capacity then
      Act.change fun s => { s with slots := s.slots.push ⟨.first, some p⟩ }
      return ⟨UInt32.ofNat size, .first⟩
    else throw .exhausted

/-- Stores a path. -/
def insert (p : Path) : Act Store Fault Handle := do
  let h ← place p
  Act.change fun s => { s with live := s.live + 1 }
  Act.tell (.created h p.id)
  return h

/-- Stores a path without coordinates. -/
def create (id : UInt32) : Act Store Fault Handle := insert (.empty id)

/-- Lets the slot of a destroyed path wait for the next one, unless it is at the last generation. -/
def release (h : Handle) : Act Store Fault Unit :=
  match h.generation.next? with
  | some generation => do
    Act.change (putSlot h.index ⟨generation, none⟩)
    Act.change fun s => { s with free := h.index :: s.free }
  | none => return ()

/-- Destroys a path. -/
def destroy (h : Handle) : Act Store Fault Unit := do
  let _ ← Act.ask fun s => s.get h
  Act.change (putSlot h.index ⟨h.generation, none⟩)
  Act.change fun s => { s with live := s.live - 1 }
  release h
  Act.tell (.destroyed h)

/-! ## Changing a path -/

/-- Exchanges one sequence of a path. -/
def replace (h : Handle) (axis : Axis) (values : List Coord) : Act Store Fault Unit := do
  let p ← Act.ask fun s => s.get h
  Act.change (putSlot h.index ⟨h.generation, some (p.replace axis values)⟩)

/-- Exchanges one sequence of a path for values whose number is declared and has to be right. -/
def set (h : Handle) (axis : Axis) (values : List Coord) (declared : Nat) : Act Store Fault Unit := do
  let _ ← Act.ask fun s => s.get h
  if declared = values.length then replace h axis values
  else throw (.lengthMismatch axis declared values.length)

end Store

end Polypath
