/-
# Commands

A command is a unit of work on one module: a leaf, or a group of commands that succeeds as a whole
or takes back what it did. What the leaves do is given from outside (`Behaviour`), so that the laws
of groups hold whatever the leaves are.

Key definitions: `Command`, `Behaviour`, `Command.execute`, `Command.undo`, `Command.leaves`.
-/
import Steward.Host

namespace Steward

/-- What a command is for. -/
inductive CommandKind where
  | create
  | update
  | remove
  | restart
  | stop
  | start
  | pull
  | recordRestart
  | resetRestarts
deriving DecidableEq

namespace CommandKind

/-- The kinds in the order of their declaration. -/
def all : List CommandKind :=
  [create, update, remove, restart, stop, start, pull, recordRestart, resetRestarts]

/-- The kind's words, joined by a mark. -/
def joined (mark : String) : CommandKind → String
  | create => "create"
  | update => "update"
  | remove => "remove"
  | restart => "restart"
  | stop => "stop"
  | start => "start"
  | pull => "pull"
  | recordRestart => "record" ++ mark ++ "restart"
  | resetRestarts => "reset" ++ mark ++ "restart" ++ mark ++ "state"

/-- The kind in a sentence. -/
def text (k : CommandKind) : String := k.joined "-"

/-- The kind in a record. -/
def word (k : CommandKind) : String := k.joined "_"

end CommandKind

/-- What can be said of a leaf without doing it. -/
class Labelled (α : Type) where
  kind : α → CommandKind
  module : α → String
  text : α → String

/-- How leaves are done and taken back, as steps over a state. -/
structure Behaviour (α σ : Type) where
  execute : Token → α → Step σ Unit
  undo : Token → α → Step σ Unit

inductive Command (α : Type) where
  | leaf (a : α)
  | group (kind : CommandKind) (module : String) (children : List (Command α))

namespace Command

variable {α β σ : Type}

instance : Inhabited (Command α) := ⟨.group .create "" []⟩

/-! ### What a command says of itself -/

section

variable [Labelled α]

def kind : Command α → CommandKind
  | leaf a => Labelled.kind a
  | group k _ _ => k

def module : Command α → String
  | leaf a => Labelled.module a
  | group _ m _ => m

mutual

/-- The command in words; a group says what its children say. -/
def text : Command α → String
  | leaf a => Labelled.text a
  | group _ _ cs => "; ".intercalate (texts cs)

def texts : List (Command α) → List String
  | [] => []
  | c :: cs => text c :: texts cs

end

end

mutual

/-- The leaves of a command in order. -/
def leaves : Command α → List α
  | leaf a => [a]
  | group _ _ cs => leavesOf cs

def leavesOf : List (Command α) → List α
  | [] => []
  | c :: cs => leaves c ++ leavesOf cs

end

mutual

/-- The command with other leaves. -/
def map (f : α → β) : Command α → Command β
  | leaf a => leaf (f a)
  | group k m cs => group k m (mapAll f cs)

def mapAll (f : α → β) : List (Command α) → List (Command β)
  | [] => []
  | c :: cs => map f c :: mapAll f cs

end

/-! ### Taking back

A group takes back its children from the last to the first and stops where that fails. -/

mutual

def undo (b : Behaviour α σ) (t : Token) : Command α → Step σ Unit
  | leaf a, s => b.undo t a s
  | group _ _ cs, s => undoAll b t cs s

def undoAll (b : Behaviour α σ) (t : Token) : List (Command α) → Step σ Unit
  | [], s => (.ok (), s)
  | c :: cs, s =>
    match undoAll b t cs s with
    | (.ok (), s) => undo b t c s
    | (.error e, s) => (.error e, s)

end

/-! ### Doing

A group does its children in order. If one fails, those done before it are taken back from the last
to the first, with the fresh token and whatever fails in that, and the failure of the child is the
failure of the group. -/

mutual

def execute (b : Behaviour α σ) (t : Token) : Command α → Step σ Unit
  | leaf a, s => b.execute t a s
  | group _ _ cs, s => executeAll b t cs s

def executeAll (b : Behaviour α σ) (t : Token) : List (Command α) → Step σ Unit
  | [], s => (.ok (), s)
  | c :: cs, s =>
    match execute b t c s with
    | (.error e, s) => (.error e, s)
    | (.ok (), s) =>
      match executeAll b t cs s with
      | (.ok (), s) => (.ok (), s)
      | (.error e, s) => (.error e, (undo b .fresh c s).2)

end

end Command
end Steward
