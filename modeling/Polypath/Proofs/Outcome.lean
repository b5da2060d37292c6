/-!
# Outcomes

An outcome is a result or a fault, and outcomes are chained: the first fault ends the chain. A chain gives a result
exactly when all its parts do (`bind_eq_ok_iff`), which is how every reader and every request is taken apart.
-/

namespace Polypath.Outcome

variable {ε δ α β : Type}

@[simp]
theorem ok_bind (a : α) (next : α → Except ε β) : (Except.ok a >>= next) = next a := rfl

@[simp]
theorem error_bind (e : ε) (next : α → Except ε β) : (Except.error e >>= next) = Except.error e := rfl

@[simp]
theorem pure_eq_ok (a : α) : (pure a : Except ε α) = .ok a := rfl

@[simp]
theorem throw_eq_error (e : ε) : (throw e : Except ε α) = .error e := rfl

@[simp]
theorem mapError_ok (widen : ε → δ) (a : α) : (Except.ok a).mapError widen = .ok a := rfl

@[simp]
theorem mapError_error (widen : ε → δ) (e : ε) : (Except.error e : Except ε α).mapError widen = .error (widen e) := rfl

/-- A chain gives a result exactly when its first part does and the rest does after it. -/
theorem bind_eq_ok_iff {first : Except ε α} {next : α → Except ε β} {b : β} :
    first >>= next = .ok b ↔ ∃ a, first = .ok a ∧ next a = .ok b := by
  cases first with
  | ok a => simp
  | error e => simp

/-- Seeing a fault as one of a larger kind does not touch the results. -/
theorem mapError_eq_ok_iff {widen : ε → δ} {first : Except ε α} {a : α} :
    first.mapError widen = .ok a ↔ first = .ok a := by
  cases first with
  | ok b => simp
  | error e => simp

theorem mapError_mapError {γ : Type} (widen : ε → δ) (further : δ → γ) (first : Except ε α) :
    (first.mapError widen).mapError further = first.mapError fun e => further (widen e) := by
  cases first <;> rfl

theorem mapError_bind (widen : ε → δ) (first : Except ε α) (next : α → Except ε β) :
    (first >>= next).mapError widen = first.mapError widen >>= fun a => (next a).mapError widen := by
  cases first <;> rfl

theorem toOption_eq_some_iff {first : Except ε α} {a : α} : first.toOption = some a ↔ first = .ok a := by
  cases first with
  | ok b => simp [Except.toOption]
  | error e => simp [Except.toOption]

theorem toOption_eq_none_iff {first : Except ε α} : first.toOption = none ↔ ∃ e, first = .error e := by
  cases first with
  | ok b => simp [Except.toOption]
  | error e => simp [Except.toOption]

/-- A guarded outcome is a result exactly when the guard holds and the outcome behind it is that result. -/
theorem guard_eq_ok_iff {p : Prop} [Decidable p] {e : ε} {first : Except ε α} {a : α} :
    (if p then first else throw e) = .ok a ↔ p ∧ first = .ok a := by
  by_cases hp : p
  · simp [hp]
  · simp [hp]

/-- An outcome behind a refusal is a result exactly when it is not refused. -/
theorem refuse_eq_ok_iff {p : Prop} [Decidable p] {e : ε} {first : Except ε α} {a : α} :
    (if p then .error e else first) = .ok a ↔ ¬ p ∧ first = .ok a := by
  by_cases hp : p
  · simp [hp]
  · simp [hp]

end Polypath.Outcome
