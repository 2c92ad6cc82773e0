/-
# Sets of modules and what tells two of them apart

A set holds modules under their own names, in name order. The difference of two sets lists the
modules to create, those to update and the names to remove, each in name order, and applying it to
the set it was taken against gives the other.

Key definitions: `ModuleSet`, `ModuleSet.create`, `ModuleSet.diff`, `ModuleSet.apply`,
`Diff.touches`.
-/
import Steward.Error
import Steward.Module.Basic

namespace Steward

/-- Modules under their own names. -/
structure ModuleSet where
  modules : NameMap Module
  named : ∀ e ∈ modules.entries, e.1 = e.2.name

/-- What has to change for one set to become another. -/
structure Diff where
  created : List Module := []
  updated : List Module := []
  removed : List String := []

namespace ModuleSet

def empty : ModuleSet := ⟨∅, fun _ h => nomatch h⟩

instance : Inhabited ModuleSet := ⟨empty⟩

theorem mem_insertEntry {α : Type} {k : String} {v : α} {e : String × α} :
    ∀ {es : List (String × α)}, e ∈ NameMap.insertEntry k v es → e = (k, v) ∨ e ∈ es
  | [], h => by simpa [NameMap.insertEntry] using h
  | (k', v') :: r, h => by
    rw [NameMap.insertEntry] at h
    split at h
    · simpa using h
    · split at h
      · rcases List.mem_cons.1 h with h | h
        · exact .inl h
        · exact .inr (List.mem_cons_of_mem _ h)
      · rcases List.mem_cons.1 h with h | h
        · exact .inr (h ▸ List.mem_cons_self)
        · exact (mem_insertEntry h).imp id (List.mem_cons_of_mem _)

/-- The set with the module, in the place of one with its name. -/
def insert (s : ModuleSet) (m : Module) : ModuleSet :=
  ⟨s.modules.insert m.name m, fun e h => by
    rcases mem_insertEntry h with rfl | h
    · rfl
    · exact s.named e h⟩

/-- The set without the name. -/
def erase (s : ModuleSet) (name : String) : ModuleSet :=
  ⟨s.modules.erase name, fun e h => s.named e (List.mem_filter.1 h).1⟩

/-- Adds modules in order, as long as each has a name with more than blanks in it that is not there
yet. -/
def add : ModuleSet → List Module → Except ModuleFault ModuleSet
  | s, [] => .ok s
  | s, m :: ms =>
    if Text.allBlank m.name then .error .emptyName
    else if s.modules.contains m.name then .error (.duplicateName m.name)
    else add (s.insert m) ms

/-- The set of a list of modules, or the first fault in the list. -/
def create (ms : List Module) : Except ModuleFault ModuleSet := add empty ms

/-- The modules in name order. -/
def toList (s : ModuleSet) : List Module := s.modules.values

def names (s : ModuleSet) : List String := s.modules.keys

def get? (s : ModuleSet) (name : String) : Option Module := s.modules.get? name

def contains (s : ModuleSet) (name : String) : Bool := s.modules.contains name

def size (s : ModuleSet) : Nat := s.modules.size

def isEmpty (s : ModuleSet) : Bool := s.modules.isEmpty

/-- Whether two lists of modules agree place by place. -/
def sameList : List Module → List Module → Bool
  | [], [] => true
  | a :: as, b :: bs => a.same b && sameList as bs
  | _, _ => false

/-- Whether two sets hold the same modules. -/
def same (a b : ModuleSet) : Bool := sameList a.toList b.toList

/-- What has to change in `b` for it to become `a`. -/
def diff (a b : ModuleSet) : Diff where
  created := a.toList.filter fun m => !b.contains m.name
  updated := a.toList.filter fun m =>
    match b.get? m.name with
    | some old => !old.same m
    | none => false
  removed := b.names.filter fun n => !a.contains n

/-- The set without what is removed and with what is created or updated. -/
def apply (s : ModuleSet) (d : Diff) : ModuleSet :=
  (d.created ++ d.updated).foldl insert (d.removed.foldl erase s)

end ModuleSet

namespace Diff

def isEmpty (d : Diff) : Bool := d.created.isEmpty && d.updated.isEmpty && d.removed.isEmpty

/-- The number of modules that change. -/
def total (d : Diff) : Nat := d.created.length + d.updated.length + d.removed.length

/-- Whether a name is created, updated or removed. -/
def touches (d : Diff) (name : String) : Bool :=
  d.removed.contains name || (d.created ++ d.updated).any (·.name == name)

def text (d : Diff) : String :=
  Text.natText d.created.length ++ " created, " ++ Text.natText d.updated.length ++ " updated, " ++
    Text.natText d.removed.length ++ " removed"

end Diff
end Steward
