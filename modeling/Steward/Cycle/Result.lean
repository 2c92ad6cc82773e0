/-
# What came of a cycle

For each command that was begun there is an outcome with the number of attempts made; a cycle that
was cancelled may lack outcomes at its end.

Key definitions: `CycleResult`, `Outcome`, `CycleResult.isSuccess`, `CycleResult.text`,
`CycleResult.statuses`.
-/
import Steward.Command.Basic
import Steward.Module.Record

namespace Steward

/-- How a command ended. -/
inductive Verdict where
  | succeeded (attempts : UInt32)
  | failed (error : String) (attempts : UInt32)
deriving DecidableEq

/-- A command by module, kind and words, and how it ended. -/
structure Outcome where
  module : String
  kind : CommandKind
  command : String
  verdict : Verdict
deriving DecidableEq

structure CycleResult where
  outcomes : List Outcome := []
  cancelled : Bool := false
  startedAt : Instant
  finishedAt : Instant
deriving DecidableEq

def Verdict.isSuccess : Verdict → Bool
  | succeeded _ => true
  | failed .. => false

def Verdict.attempts : Verdict → UInt32
  | succeeded n => n
  | failed _ n => n

def Outcome.isSuccess (o : Outcome) : Bool := o.verdict.isSuccess

namespace CycleResult

/-- The cycle in which nothing had to be done. -/
def idle (now : Instant) : CycleResult := { startedAt := now, finishedAt := now }

/-- Whether everything was done. -/
def isSuccess (r : CycleResult) : Bool := !r.cancelled && r.outcomes.all Outcome.isSuccess

def succeeded (r : CycleResult) : Nat := r.outcomes.countP Outcome.isSuccess

def failed (r : CycleResult) : Nat := r.outcomes.length - r.succeeded

/-- For each module whether all that was done for it succeeded. -/
def statuses (r : CycleResult) : NameMap Bool :=
  r.outcomes.foldl
    (fun m o => m.insert o.module ((m.get? o.module).getD true && o.isSuccess)) ∅

/-- The outcomes of a module's commands. -/
def outcomesFor (r : CycleResult) (name : String) : List Outcome :=
  r.outcomes.filter (·.module == name)

/-- How long the cycle took; no time if it ended before it began. -/
def duration (r : CycleResult) : Duration := (r.finishedAt.since r.startedAt).getD .zero

def text (r : CycleResult) : String :=
  "Cycle finished in " ++ Text.natText r.duration.toMillis ++ "ms: " ++ Text.natText r.succeeded ++
    " succeeded, " ++ Text.natText r.failed ++ " failed" ++
    if r.cancelled then " (cancelled)" else ""

end CycleResult

def Verdict.toJson : Verdict → Json
  | succeeded n => .object [("status", .string "succeeded"), ("attempts", .nat n.toNat)]
  | failed e n =>
    .object [("status", .string "failed"), ("error", .string e), ("attempts", .nat n.toNat)]

def Outcome.toJson (o : Outcome) : Json :=
  .object
    [("module", .string o.module), ("kind", .string o.kind.word), ("command", .string o.command),
     ("status", o.verdict.toJson)]

def CycleResult.toJson (r : CycleResult) : Json :=
  .object
    [("outcomes", .array (r.outcomes.map Outcome.toJson)), ("cancelled", .bool r.cancelled),
     ("started_at", r.startedAt.toJson), ("finished_at", r.finishedAt.toJson)]

end Steward
