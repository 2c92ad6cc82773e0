/-
# What can go wrong

Every failure has a cause, grouped by the part that meets it. A cause has one message; whether an
attempt is worth repeating and whether it was cut short are read off the cause.

Key definitions: `Error`, `Error.message`, `Error.isRetryable`, `Error.isCancelled`.
-/
namespace Steward

/-- Faults in a list of modules. -/
inductive ModuleFault where
  | duplicateName (name : String)
  | emptyName
deriving DecidableEq

/-- Reasons why nothing can be planned. -/
inductive PlanFault where
  | sharedIdentity (first second : String)
  | unsupported (name target reason : String)
deriving DecidableEq

/-- Ways in which a command fails. -/
inductive CommandFault where
  | failed (operation module message : String)
  | misconfigured (module message : String)
  | cancelled (module : String)
deriving DecidableEq

/-- Failures of what tells the desired and the current state. -/
inductive SourceFault where
  | configUnavailable (message : String)
  | environmentUnavailable (message : String)
  | badManifest (path message : String)
deriving DecidableEq

/-- Failures of a store of restart states. -/
inductive StoreFault where
  | unavailable (message : String)
  | corrupted (message : String)
  | unwritable (message : String)
  | notFound (key : String)
deriving DecidableEq

/-- Faults in settings, and failures to apply them. -/
inductive SettingsFault where
  | fileNotFound (path : String)
  | unparsable (message : String)
  | invalid (field message : String)
  | logging (message : String)
deriving DecidableEq

inductive Error where
  | module (e : ModuleFault)
  | plan (e : PlanFault)
  | command (e : CommandFault)
  | source (e : SourceFault)
  | store (e : StoreFault)
  | settings (e : SettingsFault)
  | io (message : String)
  | internal (message : String)
deriving DecidableEq

instance : Inhabited Error := ⟨.internal ""⟩

namespace ModuleFault

def message : ModuleFault → String
  | duplicateName name => "Duplicate module name: " ++ name
  | emptyName => "Module name cannot be empty"

end ModuleFault

namespace PlanFault

def message : PlanFault → String
  | sharedIdentity first second =>
    "Invalid identity: modules '" ++ first ++ "' and '" ++ second ++
      "' resolve to the same identity"
  | unsupported name target reason =>
    "Invalid module '" ++ name ++ "' for the " ++ target ++ " target: " ++ reason

end PlanFault

namespace CommandFault

def message : CommandFault → String
  | failed operation module message =>
    "Failed to " ++ operation ++ " module '" ++ module ++ "': " ++ message
  | misconfigured module message =>
    "Invalid configuration for module '" ++ module ++ "': " ++ message
  | cancelled module => "Command for module '" ++ module ++ "' was cancelled"

end CommandFault

namespace SourceFault

def message : SourceFault → String
  | configUnavailable message => "Config source unavailable: " ++ message
  | environmentUnavailable message => "Environment unavailable: " ++ message
  | badManifest path message =>
    "Failed to parse deployment manifest " ++ path ++ ": " ++ message

end SourceFault

namespace StoreFault

def message : StoreFault → String
  | unavailable message => "Module state store unavailable: " ++ message
  | corrupted message => "Module state is corrupted: " ++ message
  | unwritable message => "Module state serialization error: " ++ message
  | notFound key => "No module state for key '" ++ key ++ "'"

end StoreFault

namespace SettingsFault

def message : SettingsFault → String
  | fileNotFound path => "Settings file not found: " ++ path
  | unparsable message => "Failed to parse settings: " ++ message
  | invalid field message => "Invalid setting " ++ field ++ ": " ++ message
  | logging message => "Failed to initialize logging: " ++ message

end SettingsFault

namespace Error

/-- The whole message, which begins with the group of the cause. -/
def message : Error → String
  | module e => "Module error: " ++ e.message
  | plan e => "Planning error: " ++ e.message
  | command e => "Command error: " ++ e.message
  | source e => "Source error: " ++ e.message
  | store e => "Store error: " ++ e.message
  | settings e => "Settings error: " ++ e.message
  | io message => "IO error: " ++ message
  | internal message => "Internal error: " ++ message

/-- Whether another attempt may succeed: a failed operation, an unreachable store, input or output.
-/
def isRetryable : Error → Bool
  | command (.failed ..) => true
  | store (.unavailable _) => true
  | io _ => true
  | _ => false

/-- Whether the attempt was cut short by cancellation. -/
def isCancelled : Error → Bool
  | command (.cancelled _) => true
  | _ => false

end Error
end Steward
