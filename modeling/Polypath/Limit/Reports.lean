import Polypath.Journal.Report

/-!
# Resolving the element limit

A setting that is put aside is told.
-/

namespace Polypath.Limit

open Journal

/-- What is told about a setting. -/
def settingEvents (setting : Option String) : List Event :=
  match readSetting setting with
  | .ok _ => []
  | .error ignored => [.ignoredSetting ignored]

/-- The limit that a setting chooses. -/
def resolve (setting : Option String) : Logged UInt64 := ⟨ofSetting setting, settingEvents setting⟩

end Polypath.Limit
