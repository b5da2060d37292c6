import Polypath.Journal.Act
import Polypath.Proofs.Outcome

/-!
# The results of reports and acts

What is told on the way does not influence the outcome of a report, so the outcome of a chain of reports is the chain of
their outcomes (`Report.outcome_bind`). The result of an act is an outcome and a state, and the result of a chain of
acts is the chain of their results (`Act.result_bind`).

A failed act leaves the state that it had reached. Which one that is depends on the order of what it did: an act is
`Still` if it leaves every state as it is, `Sure` if it never fails, and `Clean` if its failures leave the state as it
was. Looks before an act keep it clean (`Act.Still.bind`), and so does what cannot fail behind it (`Act.Clean.bind`).
-/

namespace Polypath.Journal

open Outcome

/-! ## Reports -/

namespace Report

variable {ε δ α β : Type}

@[simp]
theorem outcome_pure (a : α) : (pure a : Report ε α).outcome = .ok a := rfl

@[simp]
theorem outcome_bind (r : Report ε α) (next : α → Report ε β) :
    (r >>= next).outcome = r.outcome >>= fun a => (next a).outcome := by
  obtain ⟨value, events⟩ := r
  cases value <;> rfl

@[simp]
theorem outcome_throw (e : ε) : (throw e : Report ε α).outcome = .error e := rfl

@[simp]
theorem outcome_tell (e : Event) : (tell e : Report ε Unit).outcome = .ok () := rfl

@[simp]
theorem outcome_ofExcept (widen : δ → ε) (x : Except δ α) : (ofExcept widen x).outcome = x.mapError widen := rfl

@[simp]
theorem outcome_adapt (widen : δ → ε) (r : Report δ α) :
    outcome (ExceptT.adapt widen r) = r.outcome.mapError widen := rfl

end Report

/-! ## Acts -/

namespace Act

variable {σ τ ε δ α β : Type}

/-- Goes on from a result, unless it is a failure. -/
def chain (first : Except ε α × σ) (next : α → σ → Except ε β × σ) : Except ε β × σ :=
  match first with
  | (.ok a, s) => next a s
  | (.error e, s) => (.error e, s)

@[simp]
theorem chain_ok (a : α) (s : σ) (next : α → σ → Except ε β × σ) : chain (.ok a, s) next = next a s := rfl

@[simp]
theorem chain_error (e : ε) (s : σ) (next : α → σ → Except ε β × σ) : chain (.error e, s) next = (.error e, s) := rfl

theorem chain_eq_ok_iff {first : Except ε α × σ} {next : α → σ → Except ε β × σ} {b : β} {u : σ} :
    chain first next = (.ok b, u) ↔ ∃ a t, first = (.ok a, t) ∧ next a t = (.ok b, u) := by
  rcases first with ⟨a | a, t⟩
  · simp
  · constructor
    · exact fun hb => ⟨a, t, rfl, hb⟩
    · rintro ⟨_, _, ⟨⟩, hb⟩
      exact hb

/-- A chain fails where its first part does, or else where the rest does. -/
theorem chain_eq_error_iff {first : Except ε α × σ} {next : α → σ → Except ε β × σ} {e : ε} {u : σ} :
    chain first next = (.error e, u) ↔
      first = (.error e, u) ∨ ∃ a t, first = (.ok a, t) ∧ next a t = (.error e, u) := by
  rcases first with ⟨fault | a, t⟩
  · simp
  · constructor
    · exact fun hfail => .inr ⟨a, t, rfl, hfail⟩
    · rintro (⟨⟨⟩⟩ | ⟨_, _, ⟨⟩, hfail⟩)
      exact hfail

@[simp]
theorem result_pure (a : α) (s : σ) : (pure a : Act σ ε α).result s = (.ok a, s) := rfl

@[simp]
theorem result_throw (e : ε) (s : σ) : (throw e : Act σ ε α).result s = (.error e, s) := rfl

@[simp]
theorem result_bind (x : Act σ ε α) (next : α → Act σ ε β) (s : σ) :
    (x >>= next).result s = chain (x.result s) fun a t => (next a).result t := by
  change (StateT.bind x _ s).value = chain (x s).value _
  rcases hx : x s with ⟨⟨fault | a, t⟩, events⟩
  · simp only [StateT.bind, hx]
    rfl
  · simp only [StateT.bind, hx]
    rfl

@[simp]
theorem result_map (f : α → β) (x : Act σ ε α) (s : σ) :
    (f <$> x).result s = chain (x.result s) fun a t => (.ok (f a), t) := by
  rw [map_eq_pure_bind, result_bind]
  rfl

@[simp]
theorem result_look (report : σ → Report ε α) (s : σ) : (look report).result s = ((report s).outcome, s) := rfl

@[simp]
theorem result_ofReport (report : Report ε α) (s : σ) : (ofReport report).result s = (report.outcome, s) := rfl

@[simp]
theorem result_ask (question : σ → Except ε α) (s : σ) : (ask question).result s = (question s, s) := by
  rw [ask, result_look, Report.outcome_ofExcept]
  cases question s <;> rfl

@[simp]
theorem result_read (view : σ → α) (s : σ) : (read view : Act σ ε α).result s = (.ok (view s), s) := rfl

@[simp]
theorem result_change (f : σ → σ) (s : σ) : (change f : Act σ ε Unit).result s = (.ok (), f s) := rfl

@[simp]
theorem result_tell (e : Event) (s : σ) : (tell e : Act σ ε Unit).result s = (.ok (), s) := rfl

@[simp]
theorem result_adapt (widen : δ → ε) (x : Act σ δ α) (s : σ) :
    (adapt widen x).result s = ((x.result s).1.mapError widen, (x.result s).2) := rfl

theorem adapt_eq_ok_iff {widen : δ → ε} {x : Act σ δ α} {s t : σ} {a : α} :
    (adapt widen x).result s = (.ok a, t) ↔ x.result s = (.ok a, t) := by
  rw [result_adapt, Prod.mk.injEq, mapError_eq_ok_iff, ← Prod.mk.injEq]

@[simp]
theorem result_onPart (part : τ → σ) (put : σ → τ → τ) (x : Act σ ε α) (t : τ) :
    (onPart part put x).result t = ((x.result (part t)).1, put (x.result (part t)).2 t) := rfl

theorem onPart_eq_ok_iff {part : τ → σ} {put : σ → τ → τ} {x : Act σ ε α} {t u : τ} {a : α} :
    (onPart part put x).result t = (.ok a, u) ↔ ∃ s, x.result (part t) = (.ok a, s) ∧ u = put s t := by
  rw [result_onPart]
  rcases x.result (part t) with ⟨fault | b, s⟩
  · simp
  · constructor
    · rintro ⟨⟩
      exact ⟨s, rfl, rfl⟩
    · rintro ⟨_, ⟨⟩, rfl⟩
      rfl

theorem outcome_making_eq_ok_iff {x : Act σ ε Unit} {s t : σ} :
    (x.making s).outcome = .ok t ↔ x.result s = (.ok (), t) := by
  change (x.result s).1.map (fun _ => (x.result s).2) = .ok t ↔ _
  rcases x.result s with ⟨fault | u, after⟩ <;> simp [Except.map]

theorem outcome_making_of_error {x : Act σ ε Unit} {s t : σ} {e : ε} (hx : x.result s = (.error e, t)) :
    (x.making s).outcome = .error e := by
  change (x.result s).1.map (fun _ => (x.result s).2) = .error e
  rw [hx]
  rfl

/-! ## Failures -/

/-- An act that leaves every state as it is. -/
def Still (x : Act σ ε α) : Prop := ∀ s, (x.result s).2 = s

/-- An act that never fails. -/
def Sure (x : Act σ ε α) : Prop := ∀ s, ∃ a t, x.result s = (.ok a, t)

/-- An act whose failures leave the state as it was. -/
def Clean (x : Act σ ε α) : Prop := ∀ s e t, x.result s = (.error e, t) → t = s

section Failures

variable {x : Act σ ε α} {next : α → Act σ ε β}

theorem still_look (report : σ → Report ε α) : Still (look report) := fun _ => rfl

theorem sure_pure (a : α) : Sure (pure a : Act σ ε α) := fun s => ⟨a, s, rfl⟩

theorem sure_change (f : σ → σ) : Sure (change f : Act σ ε Unit) := fun s => ⟨(), f s, rfl⟩

theorem sure_tell (e : Event) : Sure (tell e : Act σ ε Unit) := fun s => ⟨(), s, rfl⟩

theorem Sure.bind (hx : Sure x) (hnext : ∀ a, Sure (next a)) : Sure (x >>= next) := by
  intro s
  obtain ⟨a, t, ha⟩ := hx s
  obtain ⟨b, u, hb⟩ := hnext a t
  exact ⟨b, u, by rw [result_bind, ha, chain_ok, hb]⟩

theorem Sure.clean (hx : Sure x) : Clean x := by
  intro s e t hfail
  obtain ⟨a, u, ha⟩ := hx s
  rw [ha] at hfail
  cases hfail

theorem Still.clean (hx : Still x) : Clean x := by
  intro s e t hfail
  have hstill := hx s
  rwa [hfail] at hstill

theorem clean_throw (e : ε) : Clean (throw e : Act σ ε α) := by
  intro s _ t hfail
  cases hfail
  rfl

/-- A look before a clean act: the failure is the look's or the act's. -/
theorem Still.bind (hx : Still x) (hnext : ∀ a, Clean (next a)) : Clean (x >>= next) := by
  intro s e t hfail
  have hstill := hx s
  rw [result_bind, chain_eq_error_iff] at hfail
  obtain hfirst | ⟨a, u, hfirst, hrest⟩ := hfail
  · rwa [hfirst] at hstill
  · rw [hfirst] at hstill
    subst hstill
    exact hnext a u e t hrest

/-- What cannot fail behind a clean act: the failure is the act's. -/
theorem Clean.bind (hx : Clean x) (hnext : ∀ a, Sure (next a)) : Clean (x >>= next) := by
  intro s e t hfail
  rw [result_bind, chain_eq_error_iff] at hfail
  obtain hfirst | ⟨a, u, -, hrest⟩ := hfail
  · exact hx s e t hfirst
  · obtain ⟨b, v, hb⟩ := hnext a u
    rw [hb] at hrest
    cases hrest

theorem Clean.adapt {x : Act σ δ α} (hx : Clean x) (widen : δ → ε) : Clean (adapt widen x) := by
  intro s e t hfail
  rw [result_adapt] at hfail
  rcases hu : x.result s with ⟨fault | a, u⟩
  · rw [hu] at hfail
    cases hfail
    exact hx s fault u hu
  · rw [hu] at hfail
    cases hfail

theorem Clean.onPart {x : Act σ ε α} (hx : Clean x) (part : τ → σ) (put : σ → τ → τ)
    (hput : ∀ t, put (part t) t = t) : Clean (onPart part put x) := by
  intro t e u hfail
  rw [result_onPart] at hfail
  rcases hs : x.result (part t) with ⟨fault | a, s⟩
  · rw [hs] at hfail
    cases hfail
    rw [hx _ _ s hs, hput]
  · rw [hs] at hfail
    cases hfail

end Failures

end Act

end Polypath.Journal
