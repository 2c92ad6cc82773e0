/-
# Settings

How restarts are limited, how often commands are tried, where restart states are kept and how much
is logged. Every setting has a default, so nothing has to be given; a section may be left out as a
whole.

Key definitions: `Settings`, `Settings.validate`, `Settings.restartPolicy`, `Settings.runner`,
`Settings.parse?`.
-/
import Steward.Cycle.Runner
import Steward.Restart.Policy
import Steward.Yaml.Format

namespace Steward

structure RestartSettings where
  maxRestarts : UInt32 := 5
  coolOffSeconds : UInt64 := 10
  cap : UInt32 := 5
  intensiveCareSeconds : UInt64 := 600
deriving DecidableEq

structure RunnerSettings where
  maxAttempts : UInt32 := 3
deriving DecidableEq

/-- The directory of the store in a file; without one, states are kept in memory. -/
structure StoreSettings where
  path : Option String := none
deriving DecidableEq

/-- The filter that is logged by, and whether each entry is a line of JSON. -/
structure LoggingSettings where
  level : String := "info"
  json : Bool := false
deriving DecidableEq

structure Settings where
  restart : RestartSettings := {}
  running : RunnerSettings := {}
  store : StoreSettings := {}
  logging : LoggingSettings := {}
deriving DecidableEq

namespace Settings

instance : Inhabited Settings := ⟨{}⟩

/-- The largest exponent that delays may grow by. -/
def largestCap : UInt32 := 16

/-- Whether the settings make sense; if not, the first fault. -/
def validate (s : Settings) : Except SettingsFault Unit :=
  if s.restart.coolOffSeconds = 0 then
    .error (.invalid "restart.cool_off_unit_secs" "must be greater than zero")
  else if largestCap < s.restart.cap then
    .error (.invalid "restart.cap_exponent" ("must be at most " ++ Text.natText largestCap.toNat))
  else if s.running.maxAttempts = 0 then
    .error (.invalid "runner.max_attempts" "must be at least 1")
  else if Text.allBlank s.logging.level then
    .error (.invalid "logging.level" "cannot be empty")
  else .ok ()

/-- The delays that the settings ask for. -/
def backoff (s : Settings) : Backoff :=
  ⟨.ofSeconds s.restart.coolOffSeconds.toNat, s.restart.cap⟩

/-- The restart policy that the settings ask for. -/
def restartPolicy (s : Settings) : RestartPolicy where
  maxRestarts := s.restart.maxRestarts
  backoff := s.backoff
  intensiveCare := .ofSeconds s.restart.intensiveCareSeconds.toNat

/-- The runner that the settings ask for. -/
def runner (s : Settings) : Runner := ⟨s.running.maxAttempts, s.backoff⟩

end Settings

/-! ### Records -/

variable {m : Type → Type} [Monad m] [MonadExcept Unit m] {δ : Type}

/-- A natural number of 32 bits. -/
def Format.word32 (F : Format m δ) (d : δ) : m UInt32 := .ofNat <$> F.below UInt32.size d

/-- A natural number of 64 bits. -/
def Format.word64 (F : Format m δ) (d : δ) : m UInt64 := .ofNat <$> F.below UInt64.size d

def RestartSettings.read (F : Format m δ) (d : δ) : m RestartSettings := do
  let fs ← F.fields
    ["max_restart_count", "cool_off_unit_secs", "cap_exponent", "intensive_care_secs"] d
  let absent : RestartSettings := {}
  pure
    { maxRestarts := ← Format.defaulted fs "max_restart_count" absent.maxRestarts F.word32
      coolOffSeconds := ← Format.defaulted fs "cool_off_unit_secs" absent.coolOffSeconds F.word64
      cap := ← Format.defaulted fs "cap_exponent" absent.cap F.word32
      intensiveCareSeconds := ←
        Format.defaulted fs "intensive_care_secs" absent.intensiveCareSeconds F.word64 }

def RunnerSettings.read (F : Format m δ) (d : δ) : m RunnerSettings := do
  let fs ← F.fields ["max_attempts"] d
  let absent : RunnerSettings := {}
  pure { maxAttempts := ← Format.defaulted fs "max_attempts" absent.maxAttempts F.word32 }

def StoreSettings.read (F : Format m δ) (d : δ) : m StoreSettings := do
  let fs ← F.fields ["path"] d
  pure { path := ← Format.defaulted fs "path" none (F.maybe F.text) }

def LoggingSettings.read (F : Format m δ) (d : δ) : m LoggingSettings := do
  let fs ← F.fields ["level", "json"] d
  let absent : LoggingSettings := {}
  pure
    { level := ← Format.defaulted fs "level" absent.level F.text
      json := ← Format.defaulted fs "json" absent.json F.flag }

namespace Settings

def read (F : Format m δ) (d : δ) : m Settings := do
  let fs ← F.fields ["restart", "runner", "store", "logging"] d
  pure
    { restart := ← Format.defaulted fs "restart" {} (RestartSettings.read F)
      running := ← Format.defaulted fs "runner" {} (RunnerSettings.read F)
      store := ← Format.defaulted fs "store" {} (StoreSettings.read F)
      logging := ← Format.defaulted fs "logging" {} (LoggingSettings.read F) }

def toJson (s : Settings) : Json :=
  .object
    [("restart", .object
      [("max_restart_count", .nat s.restart.maxRestarts.toNat),
       ("cool_off_unit_secs", .nat s.restart.coolOffSeconds.toNat),
       ("cap_exponent", .nat s.restart.cap.toNat),
       ("intensive_care_secs", .nat s.restart.intensiveCareSeconds.toNat)]),
     ("runner", .object [("max_attempts", .nat s.running.maxAttempts.toNat)]),
     ("store", .object [("path", s.store.path.elim .null .string)]),
     ("logging", .object
      [("level", .string s.logging.level), ("json", .bool s.logging.json)])]

/-- The settings in a YAML text. A text of blanks has the defaults. -/
def parse? (text : String) : Option Settings :=
  if Text.allBlank text then some {} else Yaml.read? (read Yaml.format) text

end Settings
end Steward
