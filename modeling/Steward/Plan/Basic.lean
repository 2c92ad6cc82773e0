/-
# Plans

A plan is the sequence of commands that moves one set of modules towards another. Two plans are the
same if their commands agree in kind, module and words. A plan with commands is also stamped with the
time at which it was made, of which nothing here depends; a plan without commands is not.

Key definitions: `Plan`, `Plan.isStamped`, `Plan.same`, `Plan.text`.
-/
import Steward.Command.Basic

namespace Steward

structure Plan (α : Type) where
  commands : List (Command α) := []

namespace Plan

variable {α : Type}

/-- The plan without commands. -/
def empty : Plan α := {}

instance : Inhabited (Plan α) := ⟨empty⟩

def isEmpty (p : Plan α) : Bool := p.commands.isEmpty

/-- Whether the plan is stamped with the time at which it was made. -/
def isStamped (p : Plan α) : Bool := !p.isEmpty

def size (p : Plan α) : Nat := p.commands.length

variable [Labelled α]

/-- The number of commands of a kind. -/
def countOf (p : Plan α) (k : CommandKind) : Nat := p.commands.countP fun c => c.kind == k

/-- The names of the commands' modules, each where it comes first. -/
def modules (p : Plan α) : List String :=
  p.commands.foldl
    (fun names c => if names.contains c.module then names else names ++ [c.module]) []

/-- What two plans are compared by. -/
def labels (p : Plan α) : List (CommandKind × String × String) :=
  p.commands.map fun c => (c.kind, c.module, c.text)

/-- Whether two plans have the same commands. -/
def same (p q : Plan α) : Bool := p.labels == q.labels

/-- The numbered lines of a list of commands. -/
def lines : Nat → List (Command α) → String
  | _, [] => ""
  | i, c :: cs =>
    "  " ++ Text.natText i ++ ". [" ++ c.kind.text ++ "] " ++ c.text ++ "\n" ++ lines (i + 1) cs

def text (p : Plan α) : String :=
  if p.isEmpty then "No changes required"
  else "Plan (" ++ Text.natText p.size ++ " commands):\n" ++ lines 0 p.commands

end Plan
end Steward
