import Polypath.Journal.Report

/-!
# Acts

An `Act` works on a state that it does not own: it looks at the state, changes it, tells events and may fail. A failure
takes nothing back. What was done to the state before it stays done, so an act that is to leave the state alone when it
fails has to make its checks before its changes.
-/

namespace Polypath.Journal

/-- A computation that changes a state, tells events and may fail. -/
abbrev Act (σ ε α : Type) := ExceptT ε (StateT σ Logged) α

namespace Act

variable {σ τ ε δ α : Type}

/-- Does an act to a state: its outcome and the state after it, and the events on the way. -/
def perform (x : Act σ ε α) (s : σ) : Logged (Except ε α × σ) := x.run.run s

/-- The outcome of an act and the state after it. -/
def result (x : Act σ ε α) (s : σ) : Except ε α × σ := (x.perform s).value

/-- The events of an act. -/
def events (x : Act σ ε α) (s : σ) : List Event := (x.perform s).events

/-- A report about the state. -/
def look (report : σ → Report ε α) : Act σ ε α :=
  ExceptT.mk fun s => do return (← (report s).run, s)

/-- A report that has nothing to do with the state. -/
def ofReport (report : Report ε α) : Act σ ε α := look fun _ => report

/-- A question to the state that it may refuse to answer. -/
def ask (question : σ → Except ε α) : Act σ ε α :=
  look fun s => Report.ofExcept (fun fault => fault) (question s)

/-- Something that the state shows. -/
def read (view : σ → α) : Act σ ε α := look fun s => pure (view s)

/-- A change of the state. -/
def change (f : σ → σ) : Act σ ε Unit := ExceptT.mk fun s => pure (.ok (), f s)

/-- Tells one event. -/
def tell (e : Event) : Act σ ε Unit := ofReport (Report.tell e)

/-- The act with its faults seen as ones of a larger kind. -/
def adapt (widen : δ → ε) (x : Act σ δ α) : Act σ ε α :=
  ExceptT.mk fun s => do
    let (outcome, s) ← x.perform s
    return (outcome.mapError widen, s)

/-- An act on a part of the state. -/
def onPart (part : τ → σ) (put : σ → τ → τ) (x : Act σ ε α) : Act τ ε α :=
  ExceptT.mk fun t => do
    let (outcome, s) ← x.perform (part t)
    return (outcome, put s t)

/-- A report of what an act makes of a state. Of an act that fails, only the fault is reported. -/
def making (x : Act σ ε Unit) (s : σ) : Report ε σ :=
  let done := x.perform s
  ExceptT.mk ⟨done.value.1.map fun _ => done.value.2, done.events⟩

end Act

end Polypath.Journal
