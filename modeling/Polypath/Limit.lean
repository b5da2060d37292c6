import Polypath.Text.Blank
import Polypath.Text.Word
import Polypath.Wire.Format

/-!
# The element limit

The limit may be chosen by a setting, a text around which blanks do not count. An absent or blank setting leaves the
default; one that is no 64-bit number is put aside, with the reason.
-/

namespace Polypath.Limit

/-- The name of the setting. -/
def settingName : String := "TSF_MAX_ELEMENTS"

/-- A setting that was put aside: its text without surrounding blanks, and what is wrong with it. -/
structure Ignored where
  value : List Char
  fault : Text.WordFault
deriving DecidableEq, Repr

/-- What a setting amounts to: a limit, or a reason to keep the default. -/
def readSetting (setting : Option String) : Except Ignored UInt64 :=
  match setting.map fun s => Text.trim s.toList with
  | none | some [] => .ok Wire.defaultLimit
  | some value =>
    match Text.readWord value with
    | .ok limit => .ok limit
    | .error fault => .error ⟨value, fault⟩

/-- The limit that a setting chooses. -/
def ofSetting (setting : Option String) : UInt64 :=
  match readSetting setting with
  | .ok limit => limit
  | .error _ => Wire.defaultLimit

end Polypath.Limit
