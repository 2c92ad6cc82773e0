/-
# Loading settings

Settings come from a file. Variables override them: those of the environment, and for each that is
not set there the one that a file `.env` sets. What is loaded with its overrides is valid.

The file `.env` lies in a directory of its own choice, which need not be that of the settings. A
value in it that holds a NUL character is nothing that a variable could be set to: then there is a
panic, which is neither a result nor an error.

Key definitions: `Settings.load`, `Settings.Loader`, `Settings.Loader.loadWith`.
-/
import Steward.Settings.EnvironmentFile
import Steward.Settings.Override
import Steward.Store.Files

namespace Steward
namespace Settings

variable {φ : Type}

/-- The settings in a file. -/
def load (ops : FileOps φ) (path : FilePath) (disk : φ) : Except Error Settings :=
  match ops.read path disk with
  | .absent => .error (.settings (.fileNotFound path.text))
  | .unreadable _ detail => .error (.settings (.unparsable ("Failed to read file: " ++ detail)))
  | .text s =>
    match parse? s with
    | some settings => .ok settings
    | none => .error (.settings (.unparsable "YAML parse error: <detail>"))

/-- Why there are no settings: an error, or a panic over the value of a variable. -/
inductive Halt where
  | error (e : Error)
  | panic (name value : String)
deriving DecidableEq

/-- What settings are loaded with: the files, the directory of `.env`, which is the working directory
if there are no parts, and the characters that count as letters and digits there. -/
structure Loader (φ : Type) where
  ops : FileOps φ
  base : List String := []
  letter : Char → Bool := Char.isAlphanum

namespace Loader

/-- The lines of the file `.env`. -/
def dotenv (l : Loader φ) (disk : φ) : List EnvironmentFile.Line :=
  EnvironmentFile.fileLines l.letter (l.ops.read ⟨l.base, ".env"⟩ disk)

/-- The variables after the lines of `.env` were carried out. -/
def environment (l : Loader φ) (vars : NameMap String) (disk : φ) : Except Halt (NameMap String) :=
  match EnvironmentFile.assign vars (l.dotenv disk) with
  | .ok vars => .ok vars
  | .error (.unreadable detail) =>
    .error (.error (.settings (.unparsable ("Failed to load .env file: " ++ detail))))
  | .error (.nul name value) => .error (.panic name value)

/-- The settings in a file with all overrides, if they are valid then. -/
def loadWith (l : Loader φ) (path : FilePath) (vars : NameMap String) (disk : φ) :
    Except Halt Settings := do
  let vars ← l.environment vars disk
  match (← (load l.ops path disk).mapError .error).override vars.get? with
  | (.error e, _) => .error (.error (.settings e))
  | (.ok (), s) =>
    match s.validate with
    | .error e => .error (.error (.settings e))
    | .ok () => .ok s

end Loader
end Settings
end Steward
