/-
# Plans do not depend on the place

A single host and a cluster carry out what is planned by commands of their own: groups of requests
on the one, single requests on the other, and a stop that is a scale to no replicas. What is planned
is the same on both. Two planners for the same types of module and with the same policy find the
same fault, up to the place that it names, or they make plans that agree command by command in kind
and module, and they ask the store the same questions (`Planner.plan_place_independent`).

A plan is seen here by its outline, the kinds and modules of its commands. The outline of each block
is told by the modules it is made from (`Planner.outline_blocks`): each command of a target says for
what it is made and from which module, on either place.

Key definitions: `Plan.outline`, `PlanFault.at`, `Planner.on`.
Key theorems: `Planner.validate_on`, `Planner.outline_policyCommands`,
`Planner.outline_blocks`, `Planner.plan_place_independent`.
-/
import Steward.Proofs.Plan.Shape

namespace Steward

variable {σ : Type}

/-! ### Outlines -/

/-- What a command is for, and which module it is about. -/
def Command.sketch (c : Command Action) : CommandKind × String := (c.kind, c.module)

/-- The kinds and modules of a plan's commands, in order. -/
def Plan.outline (p : Plan Action) : List (CommandKind × String) := p.commands.map Command.sketch

namespace Target

variable (t : Target) (m old : Module) (runtime : RuntimeInfo) (identity : Option Identity)

@[simp] theorem sketch_create : (t.create m runtime identity).sketch = (.create, m.name) :=
  Prod.ext (t.kind_create m runtime identity) (t.module_create m runtime identity)

@[simp] theorem sketch_update : (t.update old m).sketch = (.update, m.name) :=
  Prod.ext (t.kind_update m old) (t.module_update m old)

@[simp] theorem sketch_remove : (t.remove m).sketch = (.remove, m.name) :=
  Prod.ext (t.kind_remove m) (t.module_remove m)

@[simp] theorem sketch_stop : (t.stop m).sketch = (.stop, m.name) :=
  Prod.ext (t.kind_stop m) (t.module_stop m)

end Target

/-! ### Faults -/

/-- The fault as it is found for a place; only what the target cannot run names one. -/
def PlanFault.at (place : Place) : PlanFault → PlanFault
  | .sharedIdentity first second => .sharedIdentity first second
  | .unsupported name _ reason => .unsupported name place.text reason

/-- The planner for a place, with the types of module and the policy of this one. -/
def Planner.on (p : Planner) (place : Place) : Planner :=
  { p with target := { p.target with place } }

/-- A target takes the same modules on every place. -/
theorem Target.validate_on (t : Target) (place : Place) (m : Module) :
    ({ t with place } : Target).validate m = (t.validate m).mapError (.at place) := by
  unfold validate
  split
  · rfl
  · split <;> rfl

namespace Planner

variable (p : Planner) (place : Place)

theorem validateModules_on (t : Target) : ∀ (ms : List Module) (seen : List (String × String)),
    validateModules { t with place } seen ms = (validateModules t seen ms).mapError (.at place)
  | [], _ => rfl
  | m :: ms, seen => by
    have first := t.validate_on place m
    unfold validateModules
    split
    · rfl
    · rw [first]
      cases t.validate m with
      | error => rfl
      | ok => exact validateModules_on t ms _

/-- No fault of names that come along with identities names a place. -/
theorem validateNames_on : ∀ (ns : List String) (seen : List (String × String)),
    validateNames seen ns = (validateNames seen ns).mapError (.at place)
  | [], _ => rfl
  | n :: ns, seen => by
    unfold validateNames
    split
    · rfl
    · exact validateNames_on ns _

/-- The same sets are refused on every place, for the same fault. -/
theorem validate_on (desired : ModuleSet) (ctx : PlanContext) :
    (p.on place).validate desired ctx = (p.validate desired ctx).mapError (.at place) := by
  have modules := validateModules_on place p.target desired.toList []
  have names := validateNames_on place ctx.identities.keys []
  unfold validate
  rw [on, modules]
  cases validateModules p.target [] desired.toList with
  | error => rfl
  | ok => exact names

/-! ### Blocks -/

/-- What the policy asks for a module is told without the target. -/
theorem sketch_policyCommand (m : Module) (told : RestartState) (now : Instant) :
    ((p.on place).policyCommand m told now).map Command.sketch =
      (p.policyCommand m told now).map Command.sketch := by
  have same : (p.on place).policy = p.policy := rfl
  simp only [policyCommand, same]
  split
  · rfl
  · simp
  · rfl
  · rfl
  · split <;> rfl

/-- The policy asks for the same on every place, with the same questions to the store. -/
theorem outline_policyCommands (st : StateStore σ) (now : Instant) : ∀ (ms : List Module) (s : σ),
    (((p.on place).policyCommands st now ms s).1.map Command.sketch,
        ((p.on place).policyCommands st now ms s).2) =
      ((p.policyCommands st now ms s).1.map Command.sketch, (p.policyCommands st now ms s).2)
  | [], _ => rfl
  | m :: ms, s => by
    have first := p.sketch_policyCommand place m (st.history m.name s).1 now
    have later := outline_policyCommands st now ms (st.history m.name s).2
    obtain ⟨commands, answers⟩ := Prod.mk.inj later
    have head : ((p.on place).policyCommand m (st.history m.name s).1 now).toList.map
        Command.sketch = (p.policyCommand m (st.history m.name s).1 now).toList.map
          Command.sketch := by
      rw [← Option.toList_map, ← Option.toList_map, first]
    simp only [policyCommands, List.map_append, head, commands, answers]

/-- The outline of the blocks: the changes, by kind and name, and what the policy asks for. -/
theorem outline_blocks (st : StateStore σ) (desired current : ModuleSet) (ctx : PlanContext)
    (now : Instant) (s : σ) :
    (p.blocks st desired current ctx now s).map Command.sketch =
      (byName (changes current (desired.diff current)).removed).map (fun m => (.remove, m.name)) ++
      (changes current (desired.diff current)).adjusted.map (fun c => (.update, c.2.name)) ++
      (byName (changes current (desired.diff current)).created).map (fun m => (.create, m.name)) ++
      (p.policyCommands st now (settled desired current (desired.diff current)) s).1.map
        Command.sketch := by
  simp [blocks, PlanContext.bring, Function.comp_def]

/-! ### Plans -/

variable (st : StateStore σ) (desired current : ModuleSet) (ctx : PlanContext) (now : Instant)
  (s : σ)

/-- The plan of a planner and that of the one for a place: both find the fault, or both make a plan,
and these have one outline. -/
theorem plan_on :
    (∃ f, p.plan st desired current ctx now s = (.error (.plan f), s) ∧
      (p.on place).plan st desired current ctx now s = (.error (.plan (f.at place)), s)) ∨
    ∃ plan plan' s', p.plan st desired current ctx now s = (.ok plan, s') ∧
      (p.on place).plan st desired current ctx now s = (.ok plan', s') ∧
      plan'.outline = plan.outline := by
  have moved := p.validate_on place desired ctx
  cases valid : p.validate desired ctx with
  | error f =>
    rw [valid] at moved
    have moved : (p.on place).validate desired ctx = .error (f.at place) := moved
    exact .inl ⟨f, by simp only [plan, valid], by simp only [plan, moved]⟩
  | ok =>
    rw [valid] at moved
    have moved : (p.on place).validate desired ctx = .ok () := moved
    have upkeep := p.outline_policyCommands place st now
      (settled desired current (desired.diff current)) s
    obtain ⟨commands, answers⟩ := Prod.mk.inj upkeep
    have planned := (p.on place).plan_eq st desired current ctx now s moved
    rw [answers] at planned
    refine .inr ⟨_, _, _, p.plan_eq st desired current ctx now s valid, planned, ?_⟩
    rw [Plan.outline, Plan.outline, outline_blocks, outline_blocks, commands]

/-- To shut down is to stop each module that is there, in the order of the names. -/
theorem outline_shutdownPlan : (p.shutdownPlan current).outline =
    current.names.map fun n => (.stop, n) := by
  rw [shutdownPlan, Plan.outline, current.names_eq, List.map_map, List.map_map]
  exact List.map_congr_left fun m _ => p.target.sketch_stop m

/-- **Plans do not depend on the place.** Of two planners for the same types of module and with the
same policy, one for a single host and one for a cluster, both find the same fault, which differs in
the place that it names only, or both make a plan, and the plans have equally many commands, which
agree in kind and module one by one. Either way the store is left the same. On both places the plan
to shut down has one stop for each module that is there, and the names ascend strictly. -/
theorem plan_place_independent :
    ((∃ f : PlanFault,
        (p.on .host).plan st desired current ctx now s = (.error (.plan (f.at .host)), s) ∧
        (p.on .cluster).plan st desired current ctx now s =
          (.error (.plan (f.at .cluster)), s)) ∨
      ∃ plan plan' s', (p.on .host).plan st desired current ctx now s = (.ok plan, s') ∧
        (p.on .cluster).plan st desired current ctx now s = (.ok plan', s') ∧
        plan.size = plan'.size ∧ plan.outline = plan'.outline) ∧
    (∀ place, ((p.on place).shutdownPlan current).outline =
      current.names.map fun n => (.stop, n)) ∧
    current.names.Pairwise (· < ·) := by
  refine ⟨?_, fun place => (p.on place).outline_shutdownPlan current, current.modules.ascending⟩
  rcases p.plan_on .host st desired current ctx now s with ⟨f, fault, onHost⟩ |
    ⟨plan, plan₁, s₁, planned, onHost, same₁⟩
  · rcases p.plan_on .cluster st desired current ctx now s with ⟨f', fault', onCluster⟩ |
      ⟨plan, plan₂, s₂, planned, onCluster, same₂⟩
    · rw [fault] at fault'
      cases fault'
      exact .inl ⟨f, onHost, onCluster⟩
    · rw [fault] at planned
      cases planned
  · rcases p.plan_on .cluster st desired current ctx now s with ⟨f', fault', onCluster⟩ |
      ⟨plan, plan₂, s₂, planned', onCluster, same₂⟩
    · rw [planned] at fault'
      cases fault'
    · rw [planned] at planned'
      cases planned'
      have same : plan₁.outline = plan₂.outline := same₁.trans same₂.symm
      have length := congrArg List.length same
      simp only [Plan.outline, List.length_map] at length
      exact .inr ⟨plan₁, plan₂, s₁, onHost, onCluster, length, same⟩

end Planner
end Steward
