/-
# Opening the store that settings ask for

With a directory in the settings the states are kept in a file there, without one in memory.

Key definitions: `Backing`, `Backing.openFor`, `Backing.store`.
-/
import Steward.Settings.Basic
import Steward.Store.File
import Steward.Store.Memory

namespace Steward

/-- What backs a store of either kind. -/
inductive Backing (φ : Type) where
  | memory (entries : States)
  | file (store : FileStore φ)

namespace Backing

variable {φ : Type}

instance : Inhabited (Backing φ) := ⟨memory ∅⟩

/-- Opens the store that the settings ask for. -/
def openFor (ops : FileOps φ) (s : StoreSettings) (disk : φ) : Except Error (Backing φ) :=
  match s.path with
  | none => .ok (memory ∅)
  | some dir => (FileStore.openAt ops (.inDirectory dir stateFileName) disk).map file

/-- The word for the kind of the store. -/
def kind : Backing φ → String
  | memory _ => "memory"
  | file _ => "file"

/-- A step on whichever store there is. -/
def step {α : Type} (inMemory : Step States α) (inFile : Step (FileStore φ) α) :
    Step (Backing φ) α
  | memory s =>
    let (r, s) := inMemory s
    (r, memory s)
  | file s =>
    let (r, s) := inFile s
    (r, file s)

/-- The operations on whichever store there is. -/
def store (ops : FileOps φ) : StateStore (Backing φ) where
  get k := step (memoryStore.get k) ((fileStore ops).get k)
  update k f := step (memoryStore.update k f) ((fileStore ops).update k f)
  putOrUpdate k v f := step (memoryStore.putOrUpdate k v f) ((fileStore ops).putOrUpdate k v f)
  remove k := step (memoryStore.remove k) ((fileStore ops).remove k)
  keys := step memoryStore.keys (fileStore ops).keys

end Backing
end Steward
