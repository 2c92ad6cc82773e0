/-
# The store in a file

The entries are kept in memory and, as indented JSON, in a file. A change writes the whole new map
to a temporary file beside it, which then takes the file's name; only after that do the entries in
memory change. So the file holds the old map or the new one, and a change that cannot be written is
no change.

Key definitions: `FileStore`, `FileStore.openAt`, `FileStore.persist`, `fileStore`.
-/
import Steward.Json.Format
import Steward.Json.Printer
import Steward.Store.Basic
import Steward.Store.Files

namespace Steward

/-- The entries in memory, the path of the file, and the file system it lies in. -/
structure FileStore (φ : Type) where
  path : FilePath
  entries : States
  disk : φ

/-- The file's name in a directory. -/
def stateFileName : String := "module-state.json"

/-- A map of restart states as the file shows it. -/
def States.toJson (s : States) : Json := .object (s.toList.map fun e => (e.1, e.2.toJson))

/-- The map that a text shows. -/
def States.parse? (text : String) : Option States :=
  (Document.parse? text).bind (Document.format.map (RestartState.read Document.format))

namespace FileStore

variable {φ : Type}

/-- The entries in the file at a path; a file that is not there has none. -/
def load (ops : FileOps φ) (path : FilePath) (disk : φ) : Except Error States :=
  match ops.read path disk with
  | .absent => .ok ∅
  | .unreadable _ detail => .error (.store (.corrupted ("Failed to read state file: " ++ detail)))
  | .text s =>
    match States.parse? s with
    | some entries => .ok entries
    | none => .error (.store (.corrupted "Failed to parse state file: <detail>"))

/-- Opens the store whose file has the path. -/
def openAt (ops : FileOps φ) (path : FilePath) (disk : φ) : Except Error (FileStore φ) :=
  (load ops path disk).map fun entries => ⟨path, entries, disk⟩

/-- A failed step of the file system makes the store unavailable. -/
def attempt (what : String) (r : Except String Unit × φ) : Except Error Unit × φ :=
  match r with
  | (.ok (), disk) => (.ok (), disk)
  | (.error detail, disk) =>
    (.error (.store (.unavailable ("Failed to " ++ what ++ ": " ++ detail))), disk)

/-- Goes on after a step that did not fail. -/
def andThen (r : Except Error Unit × φ) (next : φ → Except Error Unit × φ) :
    Except Error Unit × φ :=
  match r with
  | (.ok (), disk) => next disk
  | (.error e, disk) => (.error e, disk)

/-- Makes the directory of the file, unless it is there. -/
def ensureDirectory (ops : FileOps φ) (path : FilePath) (disk : φ) : Except Error Unit × φ :=
  if path.directories.isEmpty || ops.isThere path.directories disk then (.ok (), disk)
  else attempt "create state directory" (ops.makeDirectories path.directories disk)

/-- Writes the entries: directory, temporary file, contents, sync, rename. -/
def persist (ops : FileOps φ) (path : FilePath) (entries : States) (disk : φ) :
    Except Error Unit × φ :=
  let temporary := path.withExtension "tmp"
  let text := entries.toJson.indented
  andThen (ensureDirectory ops path disk) fun disk =>
  andThen (attempt "create temp state file" (ops.create temporary disk)) fun disk =>
  andThen (attempt "write state file" (ops.write temporary text disk)) fun disk =>
  andThen (attempt "sync state file" (ops.sync temporary disk)) fun disk =>
  attempt "rename state file" (ops.rename temporary path disk)

/-- Writes the entries and, if that did not fail, takes them over and answers. -/
def commit {α : Type} (ops : FileOps φ) (next : States) (answer : α) : Step (FileStore φ) α :=
  fun s =>
    match persist ops s.path next s.disk with
    | (.ok (), disk) => (.ok answer, { s with entries := next, disk })
    | (.error e, disk) => (.error e, { s with disk })

end FileStore

/-- The store in a file, over a file system. -/
def fileStore {φ : Type} (ops : FileOps φ) : StateStore (FileStore φ) where
  get k s := (.ok (s.entries.get? k), s)
  update k f s :=
    match s.entries.get? k with
    | some v => FileStore.commit ops (s.entries.insert k (f v)) (f v) s
    | none => (.error (.store (.notFound k)), s)
  putOrUpdate k v f s :=
    let next := match s.entries.get? k with
      | some old => f old
      | none => v
    FileStore.commit ops (s.entries.insert k next) next s
  remove k s :=
    match s.entries.get? k with
    | some _ => FileStore.commit ops (s.entries.erase k) () s
    | none => (.ok (), s)
  keys s := (.ok s.entries.keys, s)

end Steward
