/-
# Modules

A module is the declaration of one unit to deploy. One that comes from a device also carries what
was observed of it; the observation is a remark on the module and no part of its value.

Key definitions: `Module`, `Module.same`, `Module.differsOnlyInStatus`, `Observed`,
`RuntimeInfo.credentialsFor`.
-/
import Steward.Json.Basic
import Steward.Text.Blank
import Steward.Time.Instant

namespace Steward

/-- The state that a module is declared to be in. -/
inductive Status where
  | running
  | stopped
  | unknown
deriving DecidableEq

/-- When a module that is declared to run is restarted. -/
inductive RestartRule where
  | never
  | onFailure
  | onUnhealthy
  | always
deriving DecidableEq

/-- What a device says that a module is doing. -/
inductive RuntimeStatus where
  | running
  | stopped
  | failed
  | backoff
  | unknown
deriving DecidableEq

def Status.text : Status → String
  | running => "running"
  | stopped => "stopped"
  | unknown => "unknown"

def RestartRule.text : RestartRule → String
  | never => "never"
  | onFailure => "on-failure"
  | onUnhealthy => "on-unhealthy"
  | always => "always"

def RuntimeStatus.text : RuntimeStatus → String
  | running => "running"
  | stopped => "stopped"
  | failed => "failed"
  | backoff => "backoff"
  | unknown => "unknown"

/-- What was observed of a module. -/
structure Observed where
  status : RuntimeStatus
  exitCode : Option Int := none
  startedAt : Option Instant := none
  exitedAt : Option Instant := none
deriving DecidableEq

/-- A declared module. -/
structure Module where
  name : String
  version : String
  type : String
  status : Status := .running
  restartRule : RestartRule := .always
  config : Json := .null
  observed : Option Observed := none

instance : Inhabited Module := ⟨{ name := "", version := "", type := "" }⟩

namespace Module

/-- Whether two modules are declared alike; what was observed does not count. -/
def same (a b : Module) : Bool :=
  a.name == b.name && a.version == b.version && a.type == b.type && a.status == b.status &&
    a.restartRule == b.restartRule && a.config.same b.config

/-- Whether two modules are declared alike but for their status. -/
def differsOnlyInStatus (a b : Module) : Bool :=
  a.status != b.status && a.name == b.name && a.version == b.version && a.type == b.type &&
    a.restartRule == b.restartRule && a.config.same b.config

/-- The image to run, if the configuration names one by a string. -/
def image (m : Module) : Option String := (m.config.field? "image").bind Json.string?

/-- The identity that the module's name stands for. -/
def identityKey (m : Module) : String := Text.normalize m.name

/-- The module in a sentence. -/
def text (m : Module) : String :=
  m.name ++ " (" ++ m.type ++ " " ++ m.version ++ ", " ++ m.status.text ++ ")"

end Module

/-- The identity under which a module is known outside the device. -/
structure Identity where
  moduleId : String
  generationId : Option String := none
deriving DecidableEq

/-- A login to a registry of images. -/
structure Credentials where
  address : String
  username : String
  password : String
deriving DecidableEq

/-- What comes along with the desired modules: the kind of runtime and the logins it may use. -/
structure RuntimeInfo where
  kind : String := "docker"
  credentials : List Credentials := []
deriving DecidableEq

/-- The first login whose address and a slash begin the image's name. -/
def RuntimeInfo.credentialsFor (r : RuntimeInfo) (image : String) : Option Credentials :=
  r.credentials.find? fun c => (c.address.toList ++ ['/']).isPrefixOf image.toList

end Steward
