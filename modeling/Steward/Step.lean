/-
# Steps over a state

Whatever acts on the world (a store, a device, a command, a source of modules) is a step: it takes
the state, answers or fails, and leaves a state either way. What a step does on failure is its own
affair; nothing is undone unless it says so.

Key definitions: `Step`, `Step.through`.
-/
import Steward.Error

namespace Steward

/-- An action on a state `σ` that answers `α` or fails, and leaves a new state in both cases. -/
abbrev Step (σ α : Type) : Type := σ → Except Error α × σ

namespace Step

variable {σ κ α : Type}

/-- A step on a part of a state, found with `get` and put back with `set`. -/
def through (get : σ → κ) (set : κ → σ → σ) (step : Step κ α) : Step σ α := fun s =>
  let (r, k) := step (get s)
  (r, set k s)

end Step
end Steward
