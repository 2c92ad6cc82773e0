/-
# The records of modules and their surroundings

How a module, what was observed of it, identities and runtime information are written as JSON, with
their fields in the order of declaration, and which fields a record of them has in any format.

Key definitions: `Module.toJson`, `Module.read`, `Observed.toJson`, `Observed.read`,
`RuntimeInfo.read`, `Identity.read`.
-/
import Steward.Format
import Steward.Module.Basic

namespace Steward

variable {m : Type → Type} [Monad m] [MonadExcept Unit m] {δ : Type}

/-- The words for the declared states. -/
def Status.words : List (String × Status) :=
  [("running", .running), ("stopped", .stopped), ("unknown", .unknown)]

/-- The words for the restart rules. -/
def RestartRule.words : List (String × RestartRule) :=
  [("never", .never), ("onFailure", .onFailure), ("onUnhealthy", .onUnhealthy), ("always", .always)]

/-- The words for what a device says. -/
def RuntimeStatus.words : List (String × RuntimeStatus) :=
  [("running", .running), ("stopped", .stopped), ("failed", .failed), ("backoff", .backoff),
   ("unknown", .unknown)]

/-- The restart rule's word in a record. -/
def RestartRule.word : RestartRule → String
  | never => "never"
  | onFailure => "onFailure"
  | onUnhealthy => "onUnhealthy"
  | always => "always"

/-- A value that may be missing, as `null` then. -/
def Json.ofOption {α : Type} (write : α → Json) : Option α → Json
  | some a => write a
  | none => .null

/-- A point in time as its timestamp. -/
def Instant.toJson (t : Instant) : Json := .string t.text

/-- The integers of 64 bits with a sign. -/
def signed64 : Int × Int := (Int64.minValue.toInt, Int64.maxValue.toInt)

namespace Observed

def toJson (o : Observed) : Json :=
  .object
    [("runtime_status", .string o.status.text), ("exit_code", .ofOption .int o.exitCode),
     ("started_at", .ofOption Instant.toJson o.startedAt),
     ("exited_at", .ofOption Instant.toJson o.exitedAt)]

def read (F : Format m δ) (d : δ) : m Observed := do
  let fs ← F.fields ["runtime_status", "exit_code", "started_at", "exited_at"] d
  pure
    { status := ← Format.required fs "runtime_status" (F.choice RuntimeStatus.words)
      exitCode := ← Format.defaulted fs "exit_code" none
        (F.maybe (F.integer signed64.1 signed64.2))
      startedAt := ← Format.defaulted fs "started_at" none (F.maybe F.instant)
      exitedAt := ← Format.defaulted fs "exited_at" none (F.maybe F.instant) }

end Observed

namespace Module

/-- All fields, the observation only if there is one. -/
def toJson (m : Module) : Json :=
  .object <|
    [("name", .string m.name), ("version", .string m.version), ("type", .string m.type),
     ("status", .string m.status.text), ("restart_policy", .string m.restartRule.word),
     ("config", m.config)] ++
    match m.observed with
    | some o => [("observed", o.toJson)]
    | none => []

def read (F : Format m δ) (d : δ) : m Module := do
  let fs ← F.fields
    ["name", "version", "type", "status", "restart_policy", "config", "observed"] d
  pure
    { name := ← Format.required fs "name" F.text
      version := ← Format.required fs "version" F.text
      type := ← Format.required fs "type" F.text
      status := ← Format.defaulted fs "status" .running (F.choice Status.words)
      restartRule := ← Format.defaulted fs "restart_policy" .always (F.choice RestartRule.words)
      config := ← Format.defaulted fs "config" .null F.json
      observed := ← Format.defaulted fs "observed" none (F.maybe (Observed.read F)) }

end Module

namespace Identity

def toJson (i : Identity) : Json :=
  .object
    [("module_id", .string i.moduleId), ("generation_id", .ofOption .string i.generationId)]

def read (F : Format m δ) (d : δ) : m Identity := do
  let fs ← F.fields ["module_id", "generation_id"] d
  pure
    { moduleId := ← Format.required fs "module_id" F.text
      generationId := ← Format.defaulted fs "generation_id" none (F.maybe F.text) }

end Identity

namespace Credentials

def toJson (c : Credentials) : Json :=
  .object
    [("address", .string c.address), ("username", .string c.username),
     ("password", .string c.password)]

def read (F : Format m δ) (d : δ) : m Credentials := do
  let fs ← F.fields ["address", "username", "password"] d
  pure
    { address := ← Format.required fs "address" F.text
      username := ← Format.required fs "username" F.text
      password := ← Format.required fs "password" F.text }

end Credentials

namespace RuntimeInfo

def toJson (r : RuntimeInfo) : Json :=
  .object
    [("kind", .string r.kind),
     ("registry_credentials", .array (r.credentials.map Credentials.toJson))]

def read (F : Format m δ) (d : δ) : m RuntimeInfo := do
  let fs ← F.fields ["kind", "registry_credentials"] d
  pure
    { kind := ← Format.defaulted fs "kind" "docker" F.text
      credentials := ← Format.defaulted fs "registry_credentials" []
        (F.list (Credentials.read F)) }

end RuntimeInfo
end Steward
