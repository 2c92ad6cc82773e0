/-
# Deployment manifests

A manifest is a document that declares the desired modules, the runtime and the identities of
modules. As a file it is a source of the desired state; the file is read anew each time something is
asked.

Key definitions: `Manifest`, `Manifest.parse`, `Manifest.moduleSet`, `ManifestFile.load`,
`ManifestFile.desired`.
-/
import Steward.Agent
import Steward.Module.Record
import Steward.Store.Files
import Steward.Yaml.Format

namespace Steward

structure Manifest where
  runtime : RuntimeInfo := {}
  modules : List Module := []
  identities : NameMap Identity := ∅

namespace Manifest

instance : Inhabited Manifest := ⟨{}⟩

variable {m : Type → Type} [Monad m] [MonadExcept Unit m] {δ : Type}

def read (F : Format m δ) (d : δ) : m Manifest := do
  let fs ← F.fields ["runtime", "modules", "identities"] d
  pure
    { runtime := ← Format.defaulted fs "runtime" {} (RuntimeInfo.read F)
      modules := ← Format.defaulted fs "modules" [] (F.list (Module.read F))
      identities := ← Format.defaulted fs "identities" ∅ (F.map (Identity.read F)) }

def toJson (m : Manifest) : Json :=
  .object
    [("runtime", m.runtime.toJson), ("modules", .array (m.modules.map Module.toJson)),
     ("identities", .object (m.identities.toList.map fun e => (e.1, e.2.toJson)))]

/-- The manifest in a YAML text from some place. A text of blanks declares nothing. -/
def parse (text place : String) : Except Error Manifest :=
  if Text.allBlank text then .ok {}
  else
    match Yaml.read? (read Yaml.format) text with
    | some m => .ok m
    | none => .error (.source (.badManifest place "<detail>"))

/-- The declared modules as a set. -/
def moduleSet (m : Manifest) : Except Error ModuleSet :=
  (ModuleSet.create m.modules).mapError .module

/-- The state that the manifest desires. -/
def desired (m : Manifest) : Except Error DesiredState :=
  m.moduleSet.map fun ms => ⟨ms, ⟨m.runtime, m.identities⟩⟩

end Manifest

/-! ### Files -/

namespace ManifestFile

variable {φ σ : Type}

/-- The manifest in a file. -/
def load (ops : FileOps φ) (path : FilePath) (disk : φ) : Except Error Manifest :=
  let unreadable (detail : String) : Except Error Manifest :=
    .error (.source (.configUnavailable ("cannot read " ++ path.text ++ ": " ++ detail)))
  match ops.read path disk with
  | .absent => unreadable "<detail>"
  | .unreadable _ detail => unreadable detail
  | .text s => Manifest.parse s path.text

def desired (ops : FileOps φ) (path : FilePath) (disk : φ) : Except Error DesiredState :=
  (load ops path disk).bind Manifest.desired

def modules (ops : FileOps φ) (path : FilePath) (disk : φ) : Except Error ModuleSet :=
  (load ops path disk).bind Manifest.moduleSet

def runtime (ops : FileOps φ) (path : FilePath) (disk : φ) : Except Error RuntimeInfo :=
  (load ops path disk).map Manifest.runtime

def identities (ops : FileOps φ) (path : FilePath) (disk : φ) : Except Error (NameMap Identity) :=
  (load ops path disk).map Manifest.identities

/-- The file as a source, on the disk that a state has. -/
def source (ops : FileOps φ) (path : FilePath) (disk : σ → φ) : ConfigSource σ where
  desired s := (desired ops path (disk s), s)

end ManifestFile
end Steward
