import Polypath.Proofs.Store.Handles
import Polypath.Proofs.Store.Requests
import Polypath.Proofs.Transfer.Outcomes

/-!
# Errands

An errand is anything that is done with a store: a request, or moving a path out of it or into it. Errands come one after
the other (`run`), each with a format, a file tree and handles of its own choice, and each finds the store that the one
before it has left. One that fails leaves the store as it was (`clean_errand`); one that succeeds changes it at most
once and gives out the handles of its yield (`carryOut_step`), so what holds along changes holds along errands. The main
statement is `handles_never_come_back`.
-/

namespace Polypath

open Journal Outcome

/-! ## Requests as changes -/

namespace Store

/-- The handle of a new path. -/
def Answer.handles : Answer → List Handle
  | .handle h => [h]
  | _ => []

/-- A request that is answered changes the store at most once. -/
theorem perform_step {s t : Store} {r : Request} {a : Answer} (hr : s.perform r = (.ok a, t)) :
    Step s a.handles t := by
  cases r with
  | create | insert =>
    simp only [perform, Request.act, create, Act.result_bind, Act.chain_eq_ok_iff, Act.result_pure] at hr
    obtain ⟨h, t, hi, ⟨⟩⟩ := hr
    exact .stored (insert_eq_ok_iff.mp hi)
  | destroy h =>
    simp only [perform, Request.act, Act.result_bind, Act.chain_eq_ok_iff, Act.result_pure] at hr
    obtain ⟨_, t, hd, ⟨⟩⟩ := hr
    exact .destroyed (destroy_eq_ok_iff.mp hd)
  | set h axis values declared =>
    simp only [perform, Request.act, Act.result_bind, Act.chain_eq_ok_iff, Act.result_pure] at hr
    obtain ⟨_, t, hc, ⟨⟩⟩ := hr
    exact .replaced (set_eq_ok_iff.mp hc).2
  | replace h axis values =>
    simp only [perform, Request.act, Act.result_bind, Act.chain_eq_ok_iff, Act.result_pure] at hr
    obtain ⟨_, t, hc, ⟨⟩⟩ := hr
    exact .replaced (replace_eq_ok_iff.mp hc)
  | get | id | count | coords | item =>
    simp only [perform, Request.act, Act.result_bind, Act.chain_eq_ok_iff, Act.result_ask, Act.result_pure,
      Prod.mk.injEq, Except.ok.injEq] at hr
    obtain ⟨_, _, ⟨-, rfl⟩, rfl, rfl⟩ := hr
    exact .same
  | contains | live =>
    cases hr
    exact .same

/-- A request that is refused changes nothing. -/
theorem clean_request (r : Request) : Act.Clean r.act := by
  cases r with
  | create | insert => exact (clean_insert _).bind fun _ => Act.sure_pure _
  | destroy h => exact (clean_destroy h).bind fun _ => Act.sure_pure _
  | set h axis values declared => exact (clean_set h axis values declared).bind fun _ => Act.sure_pure _
  | replace h axis values => exact (clean_replace h axis values).bind fun _ => Act.sure_pure _
  | get | id | count | coords | item | contains | live =>
    exact (Act.still_look _).bind fun _ => (Act.sure_pure _).clean

end Store

namespace Transfer

open Wire

/-! ## Errands one after the other -/

/-- What can be done with a store. -/
inductive Errand where
  | request (r : Store.Request)
  | serialize (f : Format) (h : Handle)
  | serializeText (f : Format) (h : Handle)
  | serializeFile (f : Format) (tree : Files.Tree) (h : Handle) (file : String)
  | deserialize (f : Format) (reported : Option Nat) (bytes : List UInt8)
  | deserializeText (f : Format) (text : String)
  | deserializeFile (f : Format) (tree : Files.Tree) (file : String)
deriving DecidableEq, Repr

/-- The handle that an errand is about and that has to be live. -/
def Errand.subject? : Errand → Option Handle
  | .request r => r.subject?
  | .serialize _ h | .serializeText _ h | .serializeFile _ _ h _ => some h
  | .deserialize _ _ _ | .deserializeText _ _ | .deserializeFile _ _ _ => none

/-- What an errand yields, unless it fails. -/
inductive Yield where
  | answer (a : Store.Answer)
  | buffer (bytes : List UInt8)
  | text (text : String)
  | files (tree : Files.Tree)
deriving DecidableEq, Repr

/-- The handle of a new path. -/
def Yield.handles : Yield → List Handle
  | .answer a => a.handles
  | _ => []

/-- An errand as an act on a store. -/
def Errand.act : Errand → Act Store Fault Yield
  | .request r => return .answer (← Act.adapt .store r.act)
  | .serialize f h => return .buffer (← Act.look fun s => Transfer.serialize f s h)
  | .serializeText f h => return .text (← Act.look fun s => Transfer.serializeText f s h)
  | .serializeFile f tree h file => return .files (← Act.look fun s => (Transfer.serializeFile f s h file).making tree)
  | .deserialize f reported bytes => return .answer (.handle (← Transfer.deserialize f reported bytes))
  | .deserializeText f text => return .answer (.handle (← Transfer.deserializeText f text))
  | .deserializeFile f tree file => return .answer (.handle (← Transfer.deserializeFile f tree file))

/-- The yield of an errand, or the reason for which it fails, and the store after it. -/
def carryOut (s : Store) (e : Errand) : Except Fault Yield × Store := e.act.result s

/-- The handles that errands give out, one errand after the other, and the store after them. -/
def run (s : Store) : List Errand → List Handle × Store
  | [] => ([], s)
  | e :: es =>
    match carryOut s e with
    | (.ok y, t) => (y.handles ++ (run t es).1, (run t es).2)
    | (.error _, t) => run t es

/-! ## Errands as changes -/

section Changes

variable {s t : Store} {h : Handle}

/-- An errand that succeeds changes the store at most once. -/
theorem carryOut_step {e : Errand} {y : Yield} (he : carryOut s e = (.ok y, t)) : s.Step y.handles t := by
  cases e with
  | request r =>
    simp only [carryOut, Errand.act, Act.result_bind, Act.chain_eq_ok_iff, Act.adapt_eq_ok_iff, Act.result_pure] at he
    obtain ⟨a, t, hr, ⟨⟩⟩ := he
    exact Store.perform_step hr
  | serialize | serializeText | serializeFile =>
    simp only [carryOut, Errand.act, Act.result_bind, Act.chain_eq_ok_iff, Act.result_look, Act.result_pure,
      Prod.mk.injEq, Except.ok.injEq] at he
    obtain ⟨_, _, ⟨-, rfl⟩, rfl, rfl⟩ := he
    exact .same
  | deserialize | deserializeText | deserializeFile =>
    simp only [carryOut, Errand.act, Act.result_bind, Act.chain_eq_ok_iff, Act.result_pure] at he
    obtain ⟨h, t, harrive, ⟨⟩⟩ := he
    obtain ⟨p, -, hi⟩ := arrive_eq_ok_iff.mp harrive
    exact .stored hi

/-- An errand that fails changes nothing. -/
theorem clean_errand (e : Errand) : Act.Clean e.act := by
  cases e with
  | request r => exact ((Store.clean_request r).adapt Fault.store).bind fun _ => Act.sure_pure _
  | serialize | serializeText | serializeFile => exact (Act.still_look _).bind fun _ => (Act.sure_pure _).clean
  | deserialize | deserializeText | deserializeFile => exact (clean_arrive _).bind fun _ => Act.sure_pure _

theorem carryOut_error {e : Errand} {fault : Fault} (he : carryOut s e = (.error fault, t)) : t = s :=
  clean_errand e s fault t he

/-- One errand, whether it succeeds or fails. -/
theorem run_singleton_step (s : Store) (e : Errand) : s.Step (run s [e]).1 (run s [e]).2 := by
  unfold run
  split
  · next y t he =>
    simp only [run, List.append_nil]
    exact carryOut_step he
  · next fault t he =>
    rw [carryOut_error he]
    exact .same

theorem run_append (s : Store) (before later : List Errand) :
    run s (before ++ later) =
      ((run s before).1 ++ (run (run s before).2 later).1, (run (run s before).2 later).2) := by
  induction before generalizing s with
  | nil => rfl
  | cons e es ih =>
    rw [List.cons_append, run, run]
    split
    · next y t he => simp only [ih t, List.append_assoc]
    · next fault t he => exact ih t

theorem run_reaches (s : Store) (errands : List Errand) : s.Reaches (run s errands).1 (run s errands).2 := by
  induction errands generalizing s with
  | nil => exact .refl
  | cons e es ih =>
    unfold run
    split
    · next y t he => exact (carryOut_step he).reaches.trans (ih t)
    · next fault t he =>
      rw [carryOut_error he]
      exact ih s

/-- An errand about a handle that is not live fails for that reason. -/
theorem carryOut_of_not_live {e : Errand} (he : e.subject? = some h) (hn : s.find? h = none) :
    carryOut s e = (.error (.store (.invalidHandle h)), s) := by
  cases e with
  | request r =>
    have hr : r.act.result s = (.error (.invalidHandle h), s) := Store.perform_of_not_live he hn
    simp [carryOut, Errand.act, hr]
  | serialize | serializeText =>
    cases he
    simp only [carryOut, Errand.act, Act.result_bind, Act.result_look, serialize, serializeText, outcome_fetch_bind hn,
      Act.chain_error]
  | serializeFile f tree _ file =>
    cases he
    have hfile : (serializeFile f s h file).result tree = (.error (.store (.invalidHandle h)), tree) := by
      rw [serializeFile, Act.result_bind, Act.result_ofReport, outcome_fetch, Store.get_eq_error hn, mapError_error,
        Act.chain_error]
    simp only [carryOut, Errand.act, Act.result_bind, Act.result_look, Act.outcome_making_of_error hfile,
      Act.chain_error]
  | deserialize | deserializeText | deserializeFile => cases he

end Changes

/-- **Handles never come back.** Whatever errands a store is sent on from the beginning, the handles that it gives out
are pairwise different. Once a handle is destroyed it stays so, whatever errands follow: it is not live, and every
errand about it fails because of it, changes nothing and gives out nothing. -/
theorem handles_never_come_back :
    (∀ errands, (run .empty errands).1.Nodup) ∧
      ∀ (before later : List Errand) (h : Handle) (t : Store),
        (Store.destroy h).result (run .empty before).2 = (.ok (), t) →
        let u := (run t later).2
        u.contains h = false ∧
          ∀ e : Errand, e.subject? = some h →
            carryOut u e = (.error (.store (.invalidHandle h)), u) ∧ run u [e] = ([], u) := by
  refine ⟨fun errands => (run_reaches _ errands).nodup Store.wellFormed_empty, ?_⟩
  intro before later h t hd u
  have hs := (run_reaches _ before).wellFormed Store.wellFormed_empty
  have hdestroyed := Store.destroy_eq_ok_iff.mp hd
  have hdead : u.Dead h := (run_reaches t later).dead (hdestroyed.wellFormed hs) (hdestroyed.dead hs)
  refine ⟨by simp [Store.contains, hdead.find?_eq], fun e he => ?_⟩
  have hfail := carryOut_of_not_live he hdead.find?_eq
  exact ⟨hfail, by simp [run, hfail]⟩

/-- The slot of a destroyed path is used again, at its second generation. The new path cannot be had with the old
handle. -/
theorem handles_never_come_back_reuse :
    let h : Handle := ⟨0, .first⟩
    let t : Store := ⟨#[⟨⟨2, by decide⟩, none⟩], [0], 0⟩
    let u := (run t [.request (.create 8)]).2
    (Store.destroy h).result (run .empty [.request (.create 7)]).2 = (.ok (), t) ∧
      u.contains ⟨0, ⟨2, by decide⟩⟩ = true ∧ u.contains h = false ∧
        carryOut u (.serialize {} h) = (.error (.store (.invalidHandle h)), u) := by
  intro h t u
  have hd : (Store.destroy h).result (run .empty [.request (.create 7)]).2 = (.ok (), t) := by rfl
  obtain ⟨hgone, hfail⟩ := handles_never_come_back.2 [.request (.create 7)] [.request (.create 8)] h t hd
  exact ⟨hd, by decide, hgone, (hfail (.serialize {} h) rfl).1⟩

end Transfer

end Polypath
