import Polypath.Limit
import Polypath.Text.Quoted
import Polypath.Transfer.Fault

/-!
# Events

What is written to the log. Each event has a severity and a wording.
-/

namespace Polypath.Journal

/-- How much an event matters, most first. -/
inductive Severity where
  | warn
  | debug
  | trace
deriving DecidableEq, Repr

namespace Severity

/-- The severity as it is printed. -/
def name : Severity → String
  | .warn => "WARN"
  | .debug => "DEBUG"
  | .trace => "TRACE"

/-- The position in the order from most to least. -/
def rank : Severity → Nat
  | .warn => 0
  | .debug => 1
  | .trace => 2

end Severity

/-- Something worth telling. -/
inductive Event where
  /-- A path was stored. -/
  | created (handle : Handle) (id : UInt32)
  /-- A path was destroyed. -/
  | destroyed (handle : Handle)
  /-- A path was written as a buffer. -/
  | encoded (id version : UInt32) (length : Nat)
  /-- A buffer was read as a path. -/
  | decoded (id version : UInt32) (length : Nat)
  /-- A buffer of a known version was refused. -/
  | rejected (length : Nat) (fault : Wire.Fault)
  /-- A file was written. -/
  | wroteFile (length : Nat) (file : String)
  /-- A file was read. -/
  | readFile (length : Nat) (file : String)
  /-- A buffer is about to be written under a name without the usual extension. -/
  | unusualName (file : String)
  /-- The setting of the element limit was put aside. -/
  | ignoredSetting (ignored : Limit.Ignored)
  /-- A call was given a word that is no handle. -/
  | notAHandle (call : String) (raw : UInt64)
  /-- The store refused a call. -/
  | refused (call : String) (fault : Store.Fault)
  /-- A call could not move a path. -/
  | failed (call : String) (fault : Transfer.Fault)
  /-- A call was given no bytes but a length. -/
  | absentInput (call noun : String) (length : Nat)
  /-- A call was given bytes that are no text. -/
  | notText (call : String)
  /-- A call was given no file name, or bytes that are none. -/
  | noFileName (call : String)
deriving DecidableEq, Repr

namespace Event

/-- How much the event matters. -/
def severity : Event → Severity
  | .created .. | .destroyed .. => .trace
  | .encoded .. | .decoded .. | .rejected .. | .wroteFile .. | .readFile .. => .debug
  | _ => .warn

/-- The word in hexadecimal digits. -/
def hexadecimal (raw : UInt64) : String := "0x" ++ String.ofList (Nat.toDigits 16 raw.toNat)

/-- The event in words. -/
def message : Event → String
  | .created handle id => s!"created path {handle.text} (id {id})"
  | .destroyed handle => s!"destroyed path {handle.text}"
  | .encoded id version length => s!"encoded path id {id} as TSF v{version} ({length} bytes)"
  | .decoded id version length => s!"decoded path id {id} from TSF v{version} ({length} bytes)"
  | .rejected length fault => s!"rejected {length} byte TSF buffer: {fault.message}"
  | .wroteFile length file => s!"wrote {length} bytes to {file}"
  | .readFile length file => s!"read {length} bytes from {file}"
  | .unusualName file => s!"{file} does not end in .tsf"
  | .ignoredSetting ignored =>
    s!"ignoring {Limit.settingName}={Text.quoted ignored.value}: {ignored.fault.message}; using {Wire.defaultLimit}"
  | .notAHandle call raw => s!"{call}: {hexadecimal raw} is not a path handle"
  | .refused call fault => s!"{call} failed: {fault.message}"
  | .failed call fault => s!"{call} failed: {fault.message}"
  | .absentInput call noun length => s!"{call}: null {noun} with length {length}"
  | .notText call => s!"{call}: text is not UTF-8"
  | .noFileName call => s!"{call}: missing or non-UTF-8 file name"

/-- The event as a line of the log. -/
def line (e : Event) : String := e.severity.name ++ " " ++ e.message

end Event

end Polypath.Journal
