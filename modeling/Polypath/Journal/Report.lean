import Polypath.Journal.Event

/-!
# Reports

A `Logged` value comes with the events that happened on the way to it. A `Report` may fail, and then the events up to
the failure are kept.
-/

namespace Polypath.Journal

/-- A value and the events on the way to it. -/
structure Logged (α : Type) where
  value : α
  events : List Event
deriving Repr

namespace Logged

instance : Monad Logged where
  pure value := ⟨value, []⟩
  bind first next :=
    let second := next first.value
    ⟨second.value, first.events ++ second.events⟩

@[simp]
theorem value_pure {α : Type} (a : α) : (pure a : Logged α).value = a := rfl

@[simp]
theorem events_pure {α : Type} (a : α) : (pure a : Logged α).events = [] := rfl

@[simp]
theorem value_bind {α β : Type} (first : Logged α) (next : α → Logged β) :
    (first >>= next).value = (next first.value).value := rfl

@[simp]
theorem events_bind {α β : Type} (first : Logged α) (next : α → Logged β) :
    (first >>= next).events = first.events ++ (next first.value).events := rfl

instance : LawfulMonad Logged :=
  LawfulMonad.mk' Logged (fun x => by cases x; simp [Functor.map])
    (fun _ _ => rfl)
    (fun x f g => by cases x; simp [bind])

end Logged

/-- A computation that tells events and may fail. -/
abbrev Report (ε α : Type) := ExceptT ε Logged α

namespace Report

/-- Tells one event. -/
def tell {ε : Type} (e : Event) : Report ε Unit := ExceptT.mk ⟨.ok (), [e]⟩

/-- An outcome about which there is nothing to tell, its fault seen as one of a larger kind. -/
def ofExcept {ε δ α : Type} (widen : δ → ε) (outcome : Except δ α) : Report ε α :=
  ExceptT.mk (pure (outcome.mapError widen))

/-- The outcome of a report. -/
def outcome {ε α : Type} (r : Report ε α) : Except ε α := r.run.value

/-- The events of a report. -/
def events {ε α : Type} (r : Report ε α) : List Event := r.run.events

end Report

end Polypath.Journal
