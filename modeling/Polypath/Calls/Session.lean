import Polypath.Calls.Call
import Polypath.Limit.Reports
import Polypath.Transfer.Basic

/-!
# Sessions

A session is what all calls of one process share: the store, the files around it, and the setting of the element limit,
which is looked at when the store is first needed. `Session.call` answers one call. A call that fails says so in the
log, except when all it lacks is a cell for its result, and it leaves the session in the state in which it failed.
-/

namespace Polypath.Calls

open Journal Wire

/-- The state behind the calls. -/
structure Session where
  store : Store
  tree : Files.Tree
  setting : Option String
  /-- Whether the store has been needed before. -/
  opened : Bool
deriving DecidableEq, Repr

/-- The result of a request, the session after it and the events on the way. -/
structure Ran (α : Type) where
  result : Option α
  session : Session
  events : List Event

/-- The answer to a call, the session after it and the events on the way. -/
structure Outcome where
  reply : Reply
  session : Session
  events : List Event

namespace Session

/-- The session of a new process. -/
def start (tree : Files.Tree) (setting : Option String) : Session := ⟨.empty, tree, setting, false⟩

/-- The format of buffers. -/
def format (s : Session) : Format := { limit := Limit.ofSetting s.setting }

/-- What is told when the store is needed. -/
def openingEvents (s : Session) : List Event :=
  if s.opened then [] else Limit.settingEvents s.setting

/-! ## Requests -/

/-- A request that is turned down before the store is needed. -/
def reject {α : Type} (s : Session) (e : Event) : Ran α := ⟨none, s, [e]⟩

/-- A request to the opened session. If it fails, the fault is told; what it has done by then stays done. -/
def perform {ε α : Type} (s : Session) (tellFault : ε → Event) (request : Act Session ε α) : Ran α :=
  let done := request.perform { s with opened := true }
  match done.value with
  | (.ok result, after) => ⟨some result, after, s.openingEvents ++ done.events⟩
  | (.error fault, after) => ⟨none, after, s.openingEvents ++ done.events ++ [tellFault fault]⟩

/-- An act on the store. -/
def onStore {ε α : Type} (act : Act Store ε α) : Act Session ε α :=
  act.onPart Session.store fun store s => { s with store }

/-- An act on the files. -/
def onTree {ε α : Type} (act : Act Files.Tree ε α) : Act Session ε α :=
  act.onPart Session.tree fun tree s => { s with tree }

/-- A request about the path of a raw handle. -/
def withHandle {α : Type} (s : Session) (call : String) (raw : UInt64) (request : Handle → Ran α) : Ran α :=
  match Handle.ofRaw? raw with
  | none => s.reject (.notAHandle call raw)
  | some h => request h

/-- A look into the store. -/
def inspect {α : Type} (s : Session) (call : String) (raw : UInt64)
    (look : Store → Handle → Except Store.Fault α) : Ran α :=
  s.withHandle call raw fun h => s.perform (.refused call) (Act.ask fun s => look s.store h)

/-- The name that bytes spell, up to the first zero byte. -/
def fileName? (file : Option (List UInt8)) : Option String :=
  file.bind fun bytes => Text.ofUtf8? (bytes.takeWhile (· ≠ 0))

/-- A request about a named file. -/
def withFileName {α : Type} (s : Session) (call : String) (file : Option (List UInt8)) (request : String → Ran α) :
    Ran α :=
  match fileName? file with
  | none => s.reject (.noFileName call)
  | some name => request name

/-! ## Replies -/

/-- The raw handle of a new path, or zero. -/
def replyMade (ran : Ran Handle) : Outcome :=
  let raw := match ran.result with
    | some h => h.toRaw
    | none => Handle.invalidRaw
  ⟨.made raw, ran.session, ran.events⟩

/-- Whether there is a result. -/
def replyFlag {α : Type} (ran : Ran α) : Outcome := ⟨.flag ran.result.isSome, ran.session, ran.events⟩

/-- A result put into a cell. Without a cell the call fails silently. -/
def replyCell {α : Type} (reply : Bool → Cell α → Reply) (out : Cell α) (ran : Ran α) : Outcome :=
  match ran.result, out with
  | some value, some _ => ⟨reply true (some value), ran.session, ran.events⟩
  | _, out => ⟨reply false out, ran.session, ran.events⟩

/-- A sequence and its length put into two cells. Without both cells nothing is tried and nothing told. -/
def replySequence {α : Type} (s : Session) (reply : Bool → Cell (Option (List α)) → Cell Nat → Reply)
    (outValues : Cell (Option (List α))) (outCount : Cell Nat) (request : Ran (List α)) : Outcome :=
  match outValues, outCount with
  | some _, some _ =>
    match request.result with
    | some values => ⟨reply true (some (some values)) (some values.length), request.session, request.events⟩
    | none => ⟨reply false outValues outCount, request.session, request.events⟩
  | _, _ => ⟨reply false outValues outCount, s, []⟩

/-! ## Calls -/

/-- Answers one call. -/
def call (s : Session) (c : Call) : Outcome :=
  match c with
  | .create id => replyMade (s.perform (.refused c.name) (onStore (Store.create id)))
  | .destroy raw =>
    replyFlag <| s.withHandle c.name raw fun h => s.perform (.refused c.name) (onStore (Store.destroy h))
  | .set axis raw values =>
    replyFlag <| s.withHandle c.name raw fun h =>
      s.perform (.refused c.name) (onStore (Store.set h axis (values.items?.getD []) values.length))
  | .getId raw out => replyCell .id out (s.inspect c.name raw Store.id)
  | .getCount axis raw out => replyCell .count out (s.inspect c.name raw fun store h => store.count h axis)
  | .getItem axis raw index out =>
    replyCell .coord out (s.inspect c.name raw fun store h => store.item h axis index)
  | .getCoords axis raw outValues outCount =>
    s.replySequence .coords outValues outCount (s.inspect c.name raw fun store h => store.coords h axis)
  | .serialize raw outBytes outLength =>
    s.replySequence .bytes outBytes outLength <| s.withHandle c.name raw fun h =>
      s.perform (.failed c.name) (Act.look fun s => Transfer.serialize s.format s.store h)
  | .serializeText raw outText outLength =>
    s.replySequence .bytes outText outLength <| s.withHandle c.name raw fun h =>
      s.perform (.failed c.name) <| Act.look fun s => do
        let text ← Transfer.serializeText s.format s.store h
        return Text.toUtf8 text.toList
  | .serializeFile raw file =>
    replyFlag <| s.withFileName c.name file fun name =>
      s.withHandle c.name raw fun h =>
        s.perform (.failed c.name) (onTree (Transfer.serializeFile s.format s.store h name))
  | .deserialize input =>
    replyMade <|
      match input.items? with
      | none => s.reject (.absentInput c.name "buffer" input.length)
      | some bytes =>
        s.perform (.failed c.name) (onStore (Transfer.deserialize s.format (some bytes.length) bytes))
  | .deserializeText input =>
    replyMade <|
      match input.items? with
      | none => s.reject (.absentInput c.name "text" input.length)
      | some bytes =>
        match Text.ofUtf8? bytes with
        | none => s.reject (.notText c.name)
        | some text => s.perform (.failed c.name) (onStore (Transfer.deserializeText s.format text))
  | .deserializeFile file =>
    replyMade <| s.withFileName c.name file fun name =>
      s.perform (.failed c.name) (onStore (Transfer.deserializeFile s.format s.tree name))
  | .liveCount => ⟨.live s.store.live, { s with opened := true }, s.openingEvents⟩
  | .freeNothing => ⟨.nothing, s, []⟩

end Session

end Polypath.Calls
