import Polypath.Store.Basic

/-!
# Calls from outside

Programs in other languages reach a store through calls on raw words. They pass sequences, texts and names by address
and get results through cells of their own, and any address may be absent.
-/

namespace Polypath.Calls

/-- A cell for a result, with what it holds; `none` if the caller gave no cell. -/
abbrev Cell (α : Type) := Option α

/-- A sequence passed by address: not there at all but said to have so many items, or there with its items. -/
inductive Input (α : Type) where
  | absent (length : Nat)
  | present (items : List α)
deriving DecidableEq, Repr

namespace Input

variable {α : Type}

/-- How many items there are said to be. -/
def length : Input α → Nat
  | .absent length => length
  | .present items => items.length

/-- The items that can be read. Of a sequence said to be empty there is nothing to read. -/
def items? : Input α → Option (List α)
  | .absent 0 => some []
  | .absent _ => none
  | .present items => some items

end Input

/-- The calls. A name is a byte string up to its first zero byte. -/
inductive Call where
  | create (id : UInt32)
  | destroy (handle : UInt64)
  | set (axis : Axis) (handle : UInt64) (values : Input Coord)
  | getId (handle : UInt64) (out : Cell UInt32)
  | getCount (axis : Axis) (handle : UInt64) (out : Cell Nat)
  | getItem (axis : Axis) (handle : UInt64) (index : Nat) (out : Cell Coord)
  | getCoords (axis : Axis) (handle : UInt64) (outValues : Cell (Option (List Coord))) (outCount : Cell Nat)
  | serialize (handle : UInt64) (outBytes : Cell (Option (List UInt8))) (outLength : Cell Nat)
  | serializeText (handle : UInt64) (outText : Cell (Option (List UInt8))) (outLength : Cell Nat)
  | serializeFile (handle : UInt64) (file : Option (List UInt8))
  | deserialize (bytes : Input UInt8)
  | deserializeText (text : Input UInt8)
  | deserializeFile (file : Option (List UInt8))
  | liveCount
  /-- Gives back a buffer that is not there. -/
  | freeNothing
deriving DecidableEq, Repr

namespace Call

/-- The call as it is named in the log. -/
def name : Call → String
  | .create _ => "tsf_path_create"
  | .destroy _ => "tsf_path_destroy"
  | .set axis _ _ => "tsf_path_set_" ++ axis.name
  | .getId _ _ => "tsf_path_get_idx"
  | .getCount axis _ _ => "tsf_path_get_" ++ axis.name ++ "_count"
  | .getItem axis _ _ _ => "tsf_path_get_" ++ axis.name ++ "_item"
  | .getCoords axis _ _ _ => "tsf_path_get_" ++ axis.name
  | .serialize _ _ _ => "tsf_path_serialize"
  | .serializeText _ _ _ => "tsf_path_serialize_to_base64"
  | .serializeFile _ _ => "tsf_path_serialize_to_file"
  | .deserialize _ => "tsf_path_deserialize"
  | .deserializeText _ => "tsf_path_deserialize_from_base64"
  | .deserializeFile _ => "tsf_path_deserialize_from_file"
  | .liveCount => "tsf_path_live_count"
  | .freeNothing => "tsf_bytes_free"

end Call

/-- What a call gives back: its own result, and the caller's cells as they are afterwards. -/
inductive Reply where
  /-- A raw handle, zero for a failure. -/
  | made (raw : UInt64)
  | flag (success : Bool)
  | id (success : Bool) (out : Cell UInt32)
  | count (success : Bool) (out : Cell Nat)
  | coord (success : Bool) (out : Cell Coord)
  | coords (success : Bool) (outValues : Cell (Option (List Coord))) (outCount : Cell Nat)
  | bytes (success : Bool) (outBytes : Cell (Option (List UInt8))) (outLength : Cell Nat)
  | live (count : Nat)
  | nothing
deriving DecidableEq, Repr

namespace Reply

/-- Whether the call says that it has failed. -/
def isFailure : Reply → Bool
  | .made raw => raw == Handle.invalidRaw
  | .flag success | .id success _ | .count success _ | .coord success _ | .coords success _ _
  | .bytes success _ _ => !success
  | .live _ | .nothing => false

end Reply

end Polypath.Calls
