/-
# Cycles that follow a successful one

If the clock stands still and the host remembers, a cycle in which everything succeeded leaves
little to be done: the next plan for the same modules only takes back counts of restarts, those of
modules that are past intensive care, and the plan after that is empty
(`Host.IsDevice.next_plans_of_success`).

What carries this over from cycle to cycle is that everything is as desired and the policy is calm
about every module (`Planner.Restful`): it asks for nothing, or it leaves the module alone and at
most takes back its count. A module that was brought, changed, restarted or stopped is observed to
be as it is declared, so it is left alone whatever its history. Of one for which nothing was done,
neither the entry nor the history changed, and the policy decides as before.

Key definitions: `Planner.Calm`, `Planner.Restful`.
Key theorems: `Host.IsDevice.restful_after`, `Host.IsDevice.idle_after`,
`Host.IsDevice.next_plans_of_success`.
-/
import Steward.Proofs.Cycle.Convergence
import Steward.Proofs.Device.Memory
import Steward.Proofs.Restart.Decision

namespace Steward

variable {σ : Type}

/-! ### Modules that are left alone -/

namespace Entry

variable (p : RestartPolicy) {now : Instant} {told : RestartState}

theorem decision_started {e : Entry} (status : e.module.status = .running) :
    p.decision (e.started now).report told now = .none :=
  p.decision_of_running rfl rfl (by simp [report, started, status])

theorem decision_stopped {e : Entry} (status : e.module.status = .stopped) :
    p.decision e.stopped.report told now = .none :=
  p.decision_of_not_running rfl (by simp) (by simp [report, stopped, status])

theorem decision_landed (m : Module) : p.decision (landed now m).report told now = .none := by
  unfold landed
  split
  · rename_i status
    exact decision_started p status
  · rename_i status
    exact p.decision_of_not_running rfl (by simp) status

theorem decision_adjusted (e : Entry) (status : Status) :
    p.decision (e.adjusted status now).report told now = .none := by
  cases status with
  | running => exact decision_started p rfl
  | stopped => exact decision_stopped p rfl
  | unknown => exact p.decision_of_unknown rfl

end Entry

namespace Planner

/-- The policy asks for nothing, or at most to take back the count of a module that it leaves alone.
-/
def Calm (p : Planner) (now : Instant) (m : Module) (told : RestartState) : Prop :=
  p.policyCommand m told now = none ∨ p.policy.decision m told now = .none

/-- Everything is as desired, and the policy is calm about every module. -/
def Restful (p : Planner) (now : Instant) (desired there : ModuleSet)
    (state : String → Option RestartState) : Prop :=
  ∀ n, desired.fate there n = .absent ∨
    ∃ m, desired.fate there n = .kept m ∧ p.Calm now m ((state n).getD .never)

/-- A module that is left alone and has no count left is not asked for. -/
theorem policyCommand_of_count_zero (p : Planner) {now : Instant} {m : Module} {told : RestartState}
    (alone : p.policy.decision m told now = .none) (zero : told.count = 0) :
    p.policyCommand m told now = none := by
  simp [policyCommand, alone, zero]

/-- If no name has a command, the plan is empty. -/
theorem plan_empty (p : Planner) (st : StateStore σ) (desired current : ModuleSet)
    (ctx : PlanContext) (now : Instant) (s : σ) (valid : p.validate desired ctx = .ok ())
    (h : ∀ n, p.commandsFor ctx now (st.told (keptNames desired current) s n)
      (desired.fate current n) = []) :
    ∃ s', p.plan st desired current ctx now s = (.ok .empty, s') := by
  have none : p.blocks st desired current ctx now s = [] := by
    refine List.eq_nil_iff_forall_not_mem.2 fun c hc => ?_
    have called := p.mem_commandsFor st desired current ctx now s hc
    rw [h] at called
    cases called
  have planned := p.plan_eq st desired current ctx now s valid
  rw [none] at planned
  exact ⟨_, planned⟩

end Planner

namespace Host

/-! ### Successful cycles, name by name -/

section

variable {h : Host σ} {table : σ → Table} (device : h.IsDevice table) {states : σ → States}
  (remembers : h.Remembers states) {p : Planner} {r : Runner} {ctx : PlanContext} {now : Instant}
  {desired current : ModuleSet} {n : String} {s s₁ s₂ : σ} {plan : Plan Action}
  {result : CycleResult} (planned : p.plan h.store desired current ctx now s = (.ok plan, s₁))
  (ran : r.run h.toSignals (Action.behaviour h) plan s₁ = (result, s₂))
  (success : result.isSuccess = true)

include planned ran success

include device in
theorem IsDevice.chained_entry (n : String) :
    Chained (r.Does (Action.behaviour h) (entryAt table n))
      (p.commandsFor ctx now (h.store.told (Planner.keptNames desired current) s n)
        (desired.fate current n)) (entryAt table n s) (entryAt table n s₂) := by
  have chained := Planner.chained_of_name (device.entry_keeps n)
    (fun _ other _ _ _ does => device.does_frame other does) planned ran success
  rwa [(Planner.plan_ok planned).2.2, entryAt, device.policyCommands_keeps] at chained

include remembers in
theorem Remembers.chained_state (n : String) :
    Chained (r.Does (Action.behaviour h) (stateAt states n))
      (p.commandsFor ctx now (h.store.told (Planner.keptNames desired current) s n)
        (desired.fate current n)) (stateAt states n s) (stateAt states n s₂) := by
  have chained := Planner.chained_of_name (remembers.state_keeps n)
    (fun _ other _ _ _ does => remembers.does_frame (fun a ha notes => other a ha
      (Action.module_of_notes notes)) does) planned ran success
  rwa [(Planner.plan_ok planned).2.2, stateAt, remembers.policyCommands_keeps] at chained

end

namespace IsDevice

variable {h : Host σ} {table : σ → Table} (device : h.IsDevice table) {states : σ → States}
  (remembers : h.Remembers states) {p : Planner} (host : p.target.place = .host) {r : Runner}
  {ctx : PlanContext} {now : Instant} (still : ∀ s, h.now s = now) {desired current : ModuleSet}
  {n : String} {s s₁ s₂ : σ} {plan : Plan Action} {result : CycleResult}

include device host still in
/-- A module that was brought is left alone. -/
theorem calm_of_brought {new : Module} (own : new.name = n) {v : Option Entry} {e : Entry}
    (does : r.Does (Action.behaviour h) (entryAt table n) (ctx.bring p.target new) true v (some e))
    (told : RestartState) : p.Calm now e.report told := by
  obtain ⟨s', landed⟩ := device.does_create host own does
  rw [Option.some.inj landed, still]
  exact .inr (Entry.decision_landed p.policy new)

include device host still in
/-- A module for which the policy had something done is left alone. -/
theorem calm_of_upkeep {e₀ e : Entry} (own : e₀.report.name = n) {told : RestartState}
    {c : Command Action} (due : Due p now e₀.report told c)
    (does : r.Does (Action.behaviour h) (entryAt table n) c true (some e₀) (some e))
    (told' : RestartState) : p.Calm now e.report told' := by
  cases due with
  | restart decided =>
    have status := (p.policy.restart_of_decision decided).1
    obtain ⟨s', started⟩ := device.does_restart host own does
    rw [Option.some.inj started, still]
    exact .inr (Entry.decision_started p.policy status)
  | stop decided =>
    have status := p.policy.stopped_of_decision decided
    rw [Option.some.inj (device.does_stop host own does)]
    exact .inr (Entry.decision_stopped p.policy status)
  | reset decided =>
    subst own
    rw [Option.some.inj (device.does_reset does)]
    exact .inr (p.policy.decision_none_congr decided told')

section

variable (shows : (table s).Shows current)
  (planned : p.plan h.store desired current ctx now s = (.ok plan, s₁))
  (ran : r.run h.toSignals (Action.behaviour h) plan s₁ = (result, s₂))
  (success : result.isSuccess = true)

include device remembers host still shows planned ran success

/-- After a successful cycle the policy is calm about every module that is there and desired. -/
theorem calm_after {new : Module} (wanted : desired.get? n = some new) {e : Entry}
    (there : entryAt table n s₂ = some e) :
    p.Calm now e.report ((stateAt states n s₂).getD .never) := by
  have entry := device.chained_entry planned ran success n
  rw [there] at entry
  cases hf : desired.fate current n with
  | absent => simp [(ModuleSet.fate_eq_absent_iff.1 hf).1] at wanted
  | gone old => simp [(ModuleSet.fate_eq_gone_iff.1 hf).1] at wanted
  | added new =>
    rw [hf] at entry
    obtain ⟨v₁, does, rfl⟩ := entry
    have own := desired.name_of_get? (ModuleSet.fate_eq_added_iff.1 hf).1
    exact device.calm_of_brought host still own does _
  | adjusted old new =>
    obtain ⟨wanted, before, -⟩ := ModuleSet.fate_eq_adjusted_iff.1 hf
    rw [hf] at entry
    obtain ⟨v₁, does, rfl⟩ := entry
    obtain ⟨e₀, there₀, rfl⟩ := Option.map_eq_some_iff.1 ((shows n).symm.trans before)
    rw [entryAt, there₀] at does
    obtain ⟨s', adjusted⟩ := device.does_update host (desired.name_of_get? wanted) rfl does
    rw [Option.some.inj adjusted, still]
    exact .inr (Entry.decision_adjusted p.policy e₀ new.status)
  | replaced old new =>
    rw [hf] at entry
    obtain ⟨v₁, -, v₂, does, rfl⟩ := entry
    have own := desired.name_of_get? (ModuleSet.fate_eq_replaced_iff.1 hf).1
    exact device.calm_of_brought host still own does _
  | kept m =>
    have before := (ModuleSet.fate_eq_kept_iff.1 hf).1
    obtain ⟨e₀, there₀, rfl⟩ := Option.map_eq_some_iff.1 ((shows n).symm.trans before)
    have state := remembers.chained_state planned ran success n
    rw [hf, Planner.commandsFor] at entry state
    cases asked : p.policyCommand e₀.report
        (h.store.told (Planner.keptNames desired current) s n) now with
    | none =>
      -- nothing was done for the module, so the policy decides as before
      rw [asked] at entry state
      obtain rfl : e = e₀ := Option.some.inj (entry.trans there₀)
      have unmoved : stateAt states n s₂ = stateAt states n s := state
      rw [unmoved, ← remembers.told_eq ((Planner.mem_keptNames_iff desired current).2 ⟨_, hf⟩)]
      exact .inl asked
    | some c =>
      rw [asked] at entry
      obtain ⟨v₁, does, rfl⟩ := entry
      rw [entryAt, there₀] at does
      exact device.calm_of_upkeep host still (current.name_of_get? before)
        (Due.iff_policyCommand.2 asked) does _

/-- After a successful cycle everything is as desired and the policy is calm. -/
theorem restful_after {after : ModuleSet} (shown : (table s₂).Shows after) :
    p.Restful now desired after (stateAt states · s₂) := by
  intro n
  have agree := device.agree_of_success host n shows planned ran success
  rw [entryAt, ← shown n] at agree
  refine (ModuleSet.fate_of_agree agree).imp_right ?_
  rintro ⟨m, kept⟩
  obtain ⟨there, new, wanted, -⟩ := ModuleSet.fate_eq_kept_iff.1 kept
  obtain ⟨e, there', rfl⟩ := Option.map_eq_some_iff.1 ((shown n).symm.trans there)
  exact ⟨_, kept, device.calm_after remembers host still shows planned ran success wanted there'⟩

end

/-! ### The plans that follow -/

section

variable (restful : p.Restful now desired current (stateAt states · s))
  (planned : p.plan h.store desired current ctx now s = (.ok plan, s₁))

include remembers restful planned

/-- While everything is at rest, a plan only takes back counts. -/
theorem reset_of_restful {c : Command Action} (hc : c ∈ plan.commands) :
    ∃ m state, current.get? m.name = some m ∧ (states s).get? m.name = some state ∧
      0 < state.count ∧ p.policy.pastIntensiveCare m now = true ∧
      c = .leaf (.resetRestarts m.name) := by
  rw [(Planner.plan_ok planned).2.1] at hc
  have called := p.mem_commandsFor h.store desired current ctx now s hc
  obtain ⟨n, name⟩ : ∃ n, c.module = n := ⟨_, rfl⟩
  rw [name] at called
  rcases restful n with absent | ⟨m, kept, calm⟩
  · simp [absent, Planner.commandsFor] at called
  · have there := (ModuleSet.fate_eq_kept_iff.1 kept).1
    obtain rfl := current.name_of_get? there
    rw [kept, Planner.commandsFor, Option.mem_toList,
      remembers.told_eq ((Planner.mem_keptNames_iff desired current).2 ⟨_, kept⟩)] at called
    have alone := calm.resolve_left (by simp [called])
    cases Due.iff_policyCommand.2 called with
    | restart decided => simp [decided] at alone
    | stop decided => cases decided.symm.trans alone
    | reset _ counted long =>
      cases stored : stateAt states m.name s with
      | none => simp [stored, RestartState.never] at counted
      | some state =>
        rw [stored] at counted
        exact ⟨m, state, there, stored, counted, long, rfl⟩

variable (ran : r.run h.toSignals (Action.behaviour h) plan s₁ = (result, s₂))
  (success : result.isSuccess = true)

include device ran success

/-- After a cycle that only took back counts the entry is the same, and nothing is left to do. -/
theorem idle_after (n : String) : entryAt table n s₂ = entryAt table n s ∧
    p.commandsFor ctx now (h.store.told (Planner.keptNames desired current) s₂ n)
      (desired.fate current n) = [] := by
  have entry := device.chained_entry planned ran success n
  have state := remembers.chained_state planned ran success n
  rcases restful n with absent | ⟨m, kept, calm⟩
  · rw [absent] at entry ⊢
    exact ⟨entry, rfl⟩
  · have asked := (Planner.mem_keptNames_iff desired current).2 ⟨_, kept⟩
    have own := current.name_of_get? (ModuleSet.fate_eq_kept_iff.1 kept).1
    rw [kept, Planner.commandsFor, remembers.told_eq asked] at entry state ⊢
    cases command : p.policyCommand m ((stateAt states n s).getD .never) now with
    | none =>
      rw [command] at entry state
      have unmoved : stateAt states n s₂ = stateAt states n s := state
      exact ⟨entry, by rw [unmoved, command]; rfl⟩
    | some c =>
      rw [command] at entry state
      obtain ⟨v, does, rfl⟩ := entry
      obtain ⟨w, does', rfl⟩ := state
      have alone := calm.resolve_left (by simp [command])
      cases Due.iff_policyCommand.2 command with
      | restart decided => simp [decided] at alone
      | stop decided => simp [decided] at alone
      | reset =>
        subst own
        refine ⟨device.does_reset does, ?_⟩
        rw [p.policyCommand_of_count_zero (p.policy.decision_none_congr alone _)]
        · rfl
        · rw [remembers.does_reset does']
          cases stateAt states m.name s <;> rfl

end

/-- **Cycles settle.** If the clock stands still and everything succeeds, then the second plan for
the same modules only takes back counts, of modules that have been seen to run for the time of
intensive care, and once that succeeded the third plan is empty. -/
theorem next_plans_of_success (device : h.IsDevice table) (remembers : h.Remembers states)
    (host : p.target.place = .host) (still : ∀ s, h.now s = now) (shows : (table s).Shows current)
    (planned : p.plan h.store desired current ctx now s = (.ok plan, s₁))
    (ran : r.run h.toSignals (Action.behaviour h) plan s₁ = (result, s₂))
    (success : result.isSuccess = true) :
    ∃ after plan₂ s₃, (table s₂).Shows after ∧
      p.plan h.store desired after ctx now s₂ = (.ok plan₂, s₃) ∧
      (∀ c ∈ plan₂.commands, ∃ m state o start span,
        after.get? m.name = some m ∧ (states s₂).get? m.name = some state ∧ 0 < state.count ∧
        m.observed = some o ∧ o.status = .running ∧ o.startedAt = some start ∧
        now.since start = some span ∧ p.policy.intensiveCare.toNanos ≤ span.toNanos ∧
        c = .leaf (.resetRestarts m.name)) ∧
      ∀ result₂ s₄, r.run h.toSignals (Action.behaviour h) plan₂ s₃ = (result₂, s₄) →
        result₂.isSuccess = true → (table s₄).Shows after ∧
          ∃ s₅, p.plan h.store desired after ctx now s₄ = (.ok .empty, s₅) := by
  obtain ⟨after, shown⟩ := device.exists_shown shows planned ran
  have restful := device.restful_after remembers host still shows planned ran success shown
  have valid := (Planner.plan_ok planned).1
  have planned₂ := p.plan_eq h.store desired after ctx now s₂ valid
  refine ⟨_, _, _, shown, planned₂, fun c hc => ?_, fun result₂ s₄ ran₂ success₂ => ?_⟩
  · obtain ⟨m, state, there, stored, counted, long, rfl⟩ :=
      reset_of_restful remembers restful planned₂ hc
    obtain ⟨o, start, span, seen⟩ := p.policy.pastIntensiveCare_iff.1 long
    exact ⟨m, state, o, start, span, there, stored, counted, seen.1, seen.2.1, seen.2.2.1,
      seen.2.2.2.1, seen.2.2.2.2, rfl⟩
  · have idle := idle_after device remembers restful planned₂ ran₂ success₂
    refine ⟨fun n => ?_, p.plan_empty h.store desired after ctx now s₄ valid fun n => (idle n).2⟩
    rw [shown n]
    exact congrArg (Option.map Entry.report) (idle n).1.symm

end IsDevice
end Host

/-! The sample of one module that has failed, and is restarted. -/

open Planner in
theorem next_plans_of_success_sample :
    ∃ plan s₁ result s₂,
      Sample.planner.plan (Rehearsal.steady Sample.later).store Sample.alone Sample.alone {}
        Sample.later { table := Sample.alone.table } = (.ok plan, s₁) ∧
      ({} : Runner).run (Rehearsal.steady Sample.later).toSignals
        (Action.behaviour (Rehearsal.steady Sample.later)) plan s₁ = (result, s₂) ∧
      result.isSuccess = true ∧
      ∃ after plan₂ s₃, s₂.table.Shows after ∧
        Sample.planner.plan (Rehearsal.steady Sample.later).store Sample.alone after {} Sample.later
          s₂ = (.ok plan₂, s₃) := by
  have planned := Sample.planner.plan_eq (Rehearsal.steady Sample.later).store Sample.alone
    Sample.alone {} Sample.later { table := Sample.alone.table } (by decide)
  rw [Sample.blocks_alone _ _ rfl rfl] at planned
  have success : (({} : Runner).run (Rehearsal.steady Sample.later).toSignals
      (Action.behaviour (Rehearsal.steady Sample.later)) ⟨Sample.anew⟩
      { table := Sample.alone.table }).1.isSuccess = true := by decide
  obtain ⟨after, plan₂, s₃, shown, planned₂, -⟩ := Host.IsDevice.next_plans_of_success
    (Rehearsal.steady_isDevice Sample.later) (Rehearsal.steady_remembers Sample.later) rfl
    (fun _ => rfl) Sample.alone.shows_table planned (r := {}) rfl success
  exact ⟨_, _, _, _, planned, rfl, success, after, plan₂, s₃, shown, planned₂⟩

end Steward
