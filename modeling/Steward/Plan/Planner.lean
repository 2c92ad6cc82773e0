/-
# Planning

Given the desired modules and those that are there, the planner first makes sure that the desired
ones can be told apart and run, then turns the difference into commands: first what goes, then what
only changes its status, then what comes, where a module that changes in more than its status goes
and comes again. For every other module that is desired and there, the restart policy has its say.

Key definitions: `Planner`, `Planner.plan`, `Planner.validate`, `Planner.shutdownPlan`.
-/
import Steward.Command.Target
import Steward.Module.Set
import Steward.Plan.Basic
import Steward.Restart.Policy

namespace Steward

/-- What comes along with the desired modules. -/
structure PlanContext where
  runtime : RuntimeInfo := {}
  identities : NameMap Identity := ∅

instance : Inhabited PlanContext := ⟨{}⟩

/-- A target and a restart policy. -/
structure Planner where
  target : Target
  policy : RestartPolicy := {}

namespace Planner

/-! ### Validation -/

/-- Checks modules in order: none may have the identity of an earlier one, and the target must take
each. The identities seen so far come with the names that had them. -/
def validateModules (t : Target) : (seen : List (String × String)) → List Module →
    Except PlanFault Unit
  | _, [] => .ok ()
  | seen, m :: ms =>
    match seen.lookup m.identityKey with
    | some first => .error (.sharedIdentity first m.name)
    | none =>
      match t.validate m with
      | .error e => .error e
      | .ok () => validateModules t ((m.identityKey, m.name) :: seen) ms

/-- Checks names in order: none may stand for the identity of an earlier one. -/
def validateNames : (seen : List (String × String)) → List String → Except PlanFault Unit
  | _, [] => .ok ()
  | seen, n :: ns =>
    match seen.lookup (Text.normalize n) with
    | some first => .error (.sharedIdentity first n)
    | none => validateNames ((Text.normalize n, n) :: seen) ns

/-- Whether something can be planned for the desired modules; if not, the first fault. -/
def validate (p : Planner) (desired : ModuleSet) (ctx : PlanContext) : Except PlanFault Unit :=
  match validateModules p.target [] desired.toList with
  | .error e => .error e
  | .ok () => validateNames [] ctx.identities.keys

/-! ### Changes -/

/-- Modules by what becomes of them. -/
structure Changes where
  removed : List Module := []
  adjusted : List (Module × Module) := []
  created : List Module := []

/-- Takes in an updated module: one that is there with another status only is adjusted, any other is
replaced. -/
def Changes.update (current : ModuleSet) (c : Changes) (m : Module) : Changes :=
  match current.get? m.name with
  | none => { c with created := c.created ++ [m] }
  | some old =>
    if old.differsOnlyInStatus m then { c with adjusted := c.adjusted ++ [(old, m)] }
    else { c with removed := c.removed ++ [old], created := c.created ++ [m] }

/-- What a difference asks for. -/
def changes (current : ModuleSet) (d : Diff) : Changes :=
  d.updated.foldl (Changes.update current)
    { removed := d.removed.filterMap current.get?, created := d.created }

/-- Modules in name order. -/
def byName (ms : List Module) : List Module := ms.mergeSort fun a b => decide (a.name ≤ b.name)

/-- The commands for the changes. -/
def changeCommands (t : Target) (ctx : PlanContext) (c : Changes) : List (Command Action) :=
  (byName c.removed).map t.remove ++ c.adjusted.map (fun (old, new) => t.update old new) ++
    (byName c.created).map fun m => t.create m ctx.runtime (ctx.identities.get? m.name)

/-! ### Restarts -/

variable {σ : Type}

/-- What the restart policy asks for a module that does not change. A restart is recorded before it
is carried out. -/
def policyCommand (p : Planner) (m : Module) (state : RestartState) (now : Instant) :
    Option (Command Action) :=
  match p.policy.decision m state now with
  | .restart =>
    some (.group .restart m.name [.leaf (.recordRestart m.name), p.target.restart m])
  | .stop => some (p.target.stop m)
  | .giveUp | .wait => none
  | .none =>
    if 0 < state.count ∧ p.policy.pastIntensiveCare m now = true then
      some (.leaf (.resetRestarts m.name))
    else none

/-- The commands that the restart policy asks for, in the order of the modules. -/
def policyCommands (p : Planner) (st : StateStore σ) (now : Instant) :
    List Module → σ → List (Command Action) × σ
  | [], s => ([], s)
  | m :: ms, s =>
    let (state, s) := st.history m.name s
    let (cs, s) := policyCommands p st now ms s
    ((p.policyCommand m state now).toList ++ cs, s)

/-- The modules that are desired, there and not about to change. -/
def settled (desired current : ModuleSet) (d : Diff) : List Module :=
  current.toList.filter fun m => !d.touches m.name && desired.contains m.name

/-- The plan that moves the current modules towards the desired ones. -/
def plan (p : Planner) (st : StateStore σ) (desired current : ModuleSet) (ctx : PlanContext)
    (now : Instant) : Step σ (Plan Action) := fun s =>
  match p.validate desired ctx with
  | .error e => (.error (.plan e), s)
  | .ok () =>
    let d := desired.diff current
    let (restarts, s) := p.policyCommands st now (settled desired current d) s
    (.ok ⟨changeCommands p.target ctx (changes current d) ++ restarts⟩, s)

/-- The plan that stops every module. -/
def shutdownPlan (p : Planner) (current : ModuleSet) : Plan Action :=
  ⟨current.toList.map p.target.stop⟩

end Planner
end Steward
