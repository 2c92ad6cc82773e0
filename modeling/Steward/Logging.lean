/-
# Installing the log

There is one log for everything. It is installed once, with the settings in force then, and any
later attempt fails and leaves it as it is.

Key definitions: `Logging`, `Logging.install`.
-/
import Steward.Settings.Basic
import Steward.Step

namespace Steward

/-- The settings of the log, if it is installed. -/
structure Logging where
  installed : Option LoggingSettings := none
deriving DecidableEq

namespace Logging

instance : Inhabited Logging := ⟨{}⟩

/-- Why nothing can be installed any more. -/
def occupied : Error :=
  .settings (.logging "a global default trace dispatcher has already been set")

/-- Installs the log, unless there is one. -/
def install (s : LoggingSettings) : Step Logging Unit := fun l =>
  match l.installed with
  | some _ => (.error occupied, l)
  | none => (.ok (), ⟨some s⟩)

end Logging
end Steward
