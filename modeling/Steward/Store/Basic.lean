/-
# Stores of restart states

A store keeps a restart state under each of some names. Its operations are steps over the state that
backs it, so each may fail.

Key definitions: `StateStore`, `StateStore.history`, `StateStore.through`.
-/
import Steward.Restart.State
import Steward.Step

namespace Steward

/-- Restart states by name. -/
abbrev States : Type := NameMap RestartState

/-- The operations of a store that is backed by `κ`. -/
structure StateStore (κ : Type) where
  get : String → Step κ (Option RestartState)
  /-- Changes the state under a name that is there, and answers the new one. -/
  update : String → (RestartState → RestartState) → Step κ RestartState
  /-- Changes the state under a name, or puts the given one there if there is none. -/
  putOrUpdate : String → RestartState → (RestartState → RestartState) → Step κ RestartState
  remove : String → Step κ Unit
  keys : Step κ (List String)

namespace StateStore

variable {κ σ : Type}

/-- The store backed by a part of a larger state. -/
def through (get : σ → κ) (set : κ → σ → σ) (st : StateStore κ) : StateStore σ where
  get k := (st.get k).through get set
  update k f := (st.update k f).through get set
  putOrUpdate k v f := (st.putOrUpdate k v f).through get set
  remove k := (st.remove k).through get set
  keys := st.keys.through get set

/-- The restarts of a module; one that the store cannot tell or does not know was never restarted.
-/
def history (st : StateStore κ) (name : String) (s : κ) : RestartState × κ :=
  match st.get name s with
  | (.ok (some v), s) => (v, s)
  | (.ok none, s) => (.never, s)
  | (.error _, s) => (.never, s)

end StateStore
end Steward
