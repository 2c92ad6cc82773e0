/-
# From intents to commands

A target is where modules run, a single host or a cluster, and the types of module it takes. It
turns what is to become of a module into a command.

Key definitions: `Target`, `Target.validate`, `Target.create`, `Target.update`, `Target.restart`.
-/
import Steward.Command.Action

namespace Steward

/-- Where modules run. -/
inductive Place where
  | host
  | cluster
deriving DecidableEq

def Place.text : Place → String
  | host => "local"
  | cluster => "cluster"

/-- A place and the types of module that it takes. -/
structure Target where
  place : Place
  types : List String := ["docker"]
deriving DecidableEq

namespace Target

/-- Whether the target can run a module: its type is taken, in whatever case, and it names an image
that is not blank. -/
def validate (t : Target) (m : Module) : Except PlanFault Unit :=
  if !t.types.any (Text.sameLetters · m.type) then
    .error (.unsupported m.name t.place.text ("type '" ++ m.type ++ "' is not supported"))
  else if m.image.all Text.allBlank then
    .error (.unsupported m.name t.place.text "config.image is required")
  else .ok ()

/-- Brings a module to the target. On a host its image is pulled, with the login that fits it, the
module is created, and started if it is to run. -/
def create (t : Target) (m : Module) (runtime : RuntimeInfo) (identity : Option Identity) :
    Command Action :=
  match t.place with
  | .host =>
    .group .create m.name <|
      .leaf (.host (.pull m.image (m.image.bind runtime.credentialsFor)) m) ::
      .leaf (.host (.create identity) m) ::
      if m.status = .running then [.leaf (.host .start m)] else []
  | .cluster => .leaf (.cluster (.apply runtime identity) m)

/-- Changes the declared status of a module. -/
def update (t : Target) (current desired : Module) : Command Action :=
  match t.place with
  | .host =>
    .group .update desired.name <|
      .leaf (.host (.setStatus desired.status current.status) desired) ::
      match desired.status with
      | .running => [.leaf (.host .start desired)]
      | .stopped => [.leaf (.host .stop desired)]
      | .unknown => []
  | .cluster =>
    .group .update desired.name <|
      match desired.status with
      | .running => [.leaf (.cluster (.scale 1) desired)]
      | .stopped => [.leaf (.cluster (.scale 0) desired)]
      | .unknown => []

/-- Takes a module away. -/
def remove (t : Target) (m : Module) : Command Action :=
  match t.place with
  | .host => .leaf (.host .remove m)
  | .cluster => .leaf (.cluster .delete m)

/-- Starts a module anew. -/
def restart (t : Target) (m : Module) : Command Action :=
  match t.place with
  | .host => .leaf (.host .restart m)
  | .cluster => .leaf (.cluster .rollout m)

/-- Brings a module to a stop. -/
def stop (t : Target) (m : Module) : Command Action :=
  match t.place with
  | .host => .leaf (.host .stop m)
  | .cluster => .leaf (.cluster (.scale 0) m)

end Target
end Steward
