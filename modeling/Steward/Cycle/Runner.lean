/-
# Running a plan

The commands are executed in order. A failed one is tried again after a growing delay, as long as
its failure is worth another attempt and attempts are left; a failure is recorded and the next
command has its turn. Nothing is begun once the cycle is cancelled, and a cancelled command or delay
ends the run.

Key definitions: `Runner`, `Runner.run`, `Runner.runCommand`, `Runner.runAll`.
-/
import Steward.Cycle.Result
import Steward.Plan.Basic
import Steward.Restart.Backoff

namespace Steward

/-- How often a command is tried, at least once, and the delays between attempts. -/
structure Runner where
  limit : UInt32 := 3
  backoff : Backoff := {}
deriving DecidableEq

namespace Runner

instance : Inhabited Runner := ⟨{}⟩

/-- The number of attempts that a command has. -/
def attempts (r : Runner) : UInt32 := if r.limit = 0 then 1 else r.limit

variable {α σ : Type}

/-- Makes an attempt, and others after it as long as some are left. Answers how the command ended
and whether that ends the run. -/
def attempt (r : Runner) (g : Signals σ) (b : Behaviour α σ) (c : Command α) :
    (left : Nat) → (number : UInt32) → σ → (Verdict × Bool) × σ
  | left, number, s =>
    match c.execute b .cycle s with
    | (.ok (), s) => ((.succeeded number, false), s)
    | (.error e, s) =>
      if e.isCancelled then ((.failed e.message number, true), s)
      else if !e.isRetryable then ((.failed e.message number, false), s)
      else
        match left with
        | 0 => ((.failed e.message number, false), s)
        | left + 1 =>
          match g.wait (r.backoff.window (number - 1)) s with
          | (true, s) => ((.failed e.message number, true), s)
          | (false, s) => attempt r g b c left (number + 1) s

/-- Executes a command, with as many attempts as it has. -/
def runCommand (r : Runner) (g : Signals σ) (b : Behaviour α σ) (c : Command α) (s : σ) :
    (Verdict × Bool) × σ :=
  r.attempt g b c (r.attempts.toNat - 1) 1 s

variable [Labelled α]

/-- Executes commands in order until the run ends; answers the outcomes and whether it was
cancelled. -/
def runAll (r : Runner) (g : Signals σ) (b : Behaviour α σ) :
    List (Command α) → σ → (List Outcome × Bool) × σ
  | [], s => (([], false), s)
  | c :: cs, s =>
    match g.isCancelled .cycle s with
    | (true, s) => (([], true), s)
    | (false, s) =>
      let ((verdict, interrupted), s) := r.runCommand g b c s
      let o : Outcome := ⟨c.module, c.kind, c.text, verdict⟩
      if interrupted then (([o], true), s)
      else
        let ((os, cancelled), s) := runAll r g b cs s
        ((o :: os, cancelled), s)

/-- Runs a plan. -/
def run (r : Runner) (g : Signals σ) (b : Behaviour α σ) (p : Plan α) (s : σ) : CycleResult × σ :=
  let startedAt := g.now s
  let ((outcomes, cancelled), s) := r.runAll g b p.commands s
  ({ outcomes, cancelled, startedAt, finishedAt := g.now s }, s)

end Runner
end Steward
