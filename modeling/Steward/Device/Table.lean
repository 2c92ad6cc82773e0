/-
# A table of modules that requests act on

What is known of a device: the modules on it and what is observed of each. A request that is carried
out changes the entry of its module and no other; one for a module that is not there changes
nothing, unless it brings the module.

Key definitions: `Entry`, `Table`, `Table.carryOut`, `Table.modules`.
-/
import Steward.Host
import Steward.Module.Set

namespace Steward

/-- A module on a device and what is observed of it. -/
structure Entry where
  module : Module
  observed : Option Observed := none

/-- The modules on a device by name. -/
abbrev Table : Type := NameMap Entry

namespace Entry

/-- The module has been started. -/
def started (now : Instant) (e : Entry) : Entry :=
  { e with observed := some { status := .running, startedAt := some now } }

/-- The module has been brought to a stop; its times stay. -/
def stopped (e : Entry) : Entry :=
  let times := e.observed.getD { status := .stopped }
  { e with observed := some { times with status := .stopped, exitCode := some 0 } }

/-- The module has another declared status. -/
def declared (status : Status) (e : Entry) : Entry :=
  { e with module := { e.module with status } }

/-- A module that was brought and stands still. -/
def placed (m : Module) : Entry := ⟨m, some { status := .stopped }⟩

/-- The module with what is observed of it. -/
def report (e : Entry) : Module := { e.module with observed := e.observed }

end Entry

namespace Table

/-- The table after a request was carried out. -/
def carryOut (now : Instant) (t : Table) : Request → Table
  | .pull .. => t
  | .create m _ => t.insert m.name (.placed m)
  | .start name | .restart name | .rollout name => t.modify name (.started now)
  | .stop name => t.modify name .stopped
  | .remove name | .delete name => t.erase name
  | .setStatus name status => t.modify name (.declared status)
  | .apply m _ _ =>
    t.insert m.name (if m.status = .running then (Entry.placed m).started now else .placed m)
  | .scale name 0 => t.modify name fun e => (e.declared .stopped).stopped
  | .scale name (_ + 1) => t.modify name fun e => (e.declared .running).started now

/-- The table of a list of modules, each observed as it says. -/
def ofModules (ms : List Module) : Table := .ofList (ms.map fun m => (m.name, ⟨m, m.observed⟩))

/-- The modules of the table with what is observed of them. -/
def modules (t : Table) : List Module := t.values.map Entry.report

end Table
end Steward
