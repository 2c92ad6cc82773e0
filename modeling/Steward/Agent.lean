/-
# Cycles of reconciliation

A cycle asks for the desired modules, looks at those that are there, plans, runs the plan and
reports what is there afterwards. It fails only before anything is done; once there is a plan,
whatever goes wrong is part of the result.

Key definitions: `Agent`, `Agent.reconcile`, `Agent.shutdown`, `ConfigSource`, `Environment`.
-/
import Steward.Cycle.Runner
import Steward.Plan.Planner

namespace Steward

/-- The desired modules and what comes along with them. -/
structure DesiredState where
  modules : ModuleSet
  context : PlanContext := {}

/-- What tells the desired state. -/
structure ConfigSource (σ : Type) where
  desired : Step σ DesiredState

/-- What tells the modules that are there. -/
structure Environment (σ : Type) where
  modules : Token → Step σ ModuleSet

/-- What is told the modules that are there. -/
structure Reporter (σ : Type) where
  report : ModuleSet → Step σ Unit

variable {σ : Type}

/-- The source that asks for modules, runtime information and identities one after another. -/
def ConfigSource.ofParts (modules : Step σ ModuleSet) (runtime : Step σ RuntimeInfo)
    (identities : Step σ (NameMap Identity)) : ConfigSource σ where
  desired s :=
    match modules s with
    | (.error e, s) => (.error e, s)
    | (.ok ms, s) =>
      match runtime s with
      | (.error e, s) => (.error e, s)
      | (.ok r, s) =>
        match identities s with
        | (.error e, s) => (.error e, s)
        | (.ok ids, s) => (.ok ⟨ms, ⟨r, ids⟩⟩, s)

/-- Everything that a cycle needs. -/
structure Agent (σ : Type) where
  host : Host σ
  source : ConfigSource σ
  environment : Environment σ
  reporter : Reporter σ
  planner : Planner
  runner : Runner := {}

namespace Agent

/-- A failure to learn the desired state; one that is not about the source or its modules counts as
the source being out of reach. -/
def sourceError : Error → Error
  | .source e => .source e
  | .module e => .module e
  | e => .source (.configUnavailable e.message)

/-- A failure to learn what is there; one that is not about a source counts as the environment being
out of reach. -/
def environmentError : Error → Error
  | .source e => .source e
  | e => .source (.environmentUnavailable e.message)

/-- The modules that are there. -/
def current (a : Agent σ) : Step σ ModuleSet := fun s =>
  match a.environment.modules .cycle s with
  | (.ok ms, s) => (.ok ms, s)
  | (.error e, s) => (.error (environmentError e), s)

/-- Runs a plan on the host. -/
def run (a : Agent σ) (p : Plan Action) (s : σ) : CycleResult × σ :=
  a.runner.run a.host.toSignals (Action.behaviour a.host) p s

/-- Reports what is there, whatever comes of it. -/
def tell (a : Agent σ) (ms : ModuleSet) (s : σ) : σ := (a.reporter.report ms s).2

/-- Acts on a plan. Without commands what was read is reported; with some, what is read after they
were run. -/
def act (a : Agent σ) (there : ModuleSet) (p : Plan Action) (s : σ) : CycleResult × σ :=
  if p.isEmpty then
    let s := a.tell there s
    (.idle (a.host.now s), s)
  else
    let (result, s) := a.run p s
    match a.environment.modules .cycle s with
    | (.ok ms, s) => (result, a.tell ms s)
    | (.error _, s) => (result, s)

/-- One cycle. -/
def reconcile (a : Agent σ) : Step σ CycleResult := fun s =>
  match a.source.desired s with
  | (.error e, s) => (.error (sourceError e), s)
  | (.ok d, s) =>
    match a.current s with
    | (.error e, s) => (.error e, s)
    | (.ok there, s) =>
      match a.planner.plan a.host.store d.modules there d.context (a.host.now s) s with
      | (.error e, s) => (.error e, s)
      | (.ok p, s) =>
        let (result, s) := a.act there p s
        (.ok result, s)

/-- Stops every module that is there. -/
def shutdown (a : Agent σ) : Step σ CycleResult := fun s =>
  match a.current s with
  | (.error e, s) => (.error e, s)
  | (.ok there, s) =>
    let (result, s) := a.run (a.planner.shutdownPlan there) s
    (.ok result, s)

end Agent
end Steward
