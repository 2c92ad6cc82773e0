/-
# What a run leaves to be done

On a device a run does what is planned for a name if and only if the last command that changes the
name's module succeeds: from then on the module is as desired. In any other case, whether a command
failed for good or was never begun, the difference touches the name as it did before the run, so the
next plan has work for it (`Host.IsDevice.residual_work`).

The proof looks at one name at a time. The commands of the other names leave its entry alone, and
the fate of the name says which commands it has, two at most. A module that is replaced is neither
absent nor as desired between them, and whatever becomes of a restart does not show in the
declaration.

Key definitions: `Table.Shows`, `Command.isChange`.
Key theorems: `Host.IsDevice.agree_iff`, `Host.IsDevice.residual_work`.
-/
import Steward.Proofs.Device.Steady
import Steward.Proofs.Plan.Shape

namespace Steward

variable {σ : Type}

/-- Whether a command changes which modules there are or how they are declared. -/
def Command.isChange (c : Command Action) : Bool :=
  match c.kind with
  | .remove | .update | .create => true
  | _ => false

theorem Target.isChange_remove (t : Target) (m : Module) : (t.remove m).isChange = true := by
  rw [Command.isChange, t.kind_remove]

theorem Target.isChange_update (t : Target) (old new : Module) :
    (t.update old new).isChange = true := by
  rw [Command.isChange, t.kind_update]

theorem PlanContext.isChange_bring (ctx : PlanContext) (t : Target) (m : Module) :
    (ctx.bring t m).isChange = true := by
  rw [bring, Command.isChange, t.kind_create]

theorem Due.isChange {p : Planner} {now : Instant} {m : Module} {told : RestartState}
    {c : Command Action} (due : Due p now m told c) : c.isChange = false := by
  rcases due.kind with kind | kind | kind <;> rw [Command.isChange, kind]

/-! ### What a table shows -/

/-- The set holds what the table shows: under each name the module with what is observed of it. -/
def Table.Shows (t : Table) (ms : ModuleSet) : Prop :=
  ∀ n, ms.get? n = (t.get? n).map Entry.report

/-- Every module of the table is under its own name. -/
def Table.Named (t : Table) : Prop :=
  ∀ n e, t.get? n = some e → e.module.name = n

theorem Table.Shows.named {t : Table} {ms : ModuleSet} (shows : t.Shows ms) : t.Named := by
  intro n e h
  have there := shows n
  rw [h, Option.map_some] at there
  exact ms.name_of_get? there (m := e.report)

/-- The set that a table shows. -/
def Table.shown (t : Table) (named : t.Named) : ModuleSet where
  modules := t.mapWithKey fun _ e => e.report
  named x hx := by
    obtain ⟨y, hy, rfl⟩ := List.mem_map.1 hx
    exact (named y.1 y.2 (t.get?_eq_some_iff.2 hy)).symm

theorem Table.shows_shown {t : Table} (named : t.Named) : t.Shows (t.shown named) := fun n =>
  t.get?_mapWithKey _ n

/-- Every set is shown by a table. -/
def ModuleSet.table (ms : ModuleSet) : Table := ms.modules.mapWithKey fun _ m => ⟨m, m.observed⟩

theorem ModuleSet.shows_table (ms : ModuleSet) : ms.table.Shows ms := by
  intro n
  rw [table, NameMap.get?_mapWithKey, Option.map_map]
  exact Option.map_id'.symm

/-- What a request makes of an entry has the name of the request or that of the entry. -/
theorem Request.name_onEntry {now : Instant} {r : Request} {v : Option Entry} {e' : Entry}
    (h : r.onEntry now v = some e') :
    e'.module.name = r.module ∨ ∃ e, v = some e ∧ e'.module.name = e.module.name := by
  cases r with
  | pull => exact .inr ⟨e', h, rfl⟩
  | create m =>
    cases h
    exact .inl rfl
  | apply m =>
    cases h
    left
    split <;> rfl
  | remove | delete => cases h
  | start | restart | rollout | stop | setStatus =>
    obtain ⟨e, there, rfl⟩ := Option.map_eq_some_iff.1 h
    exact .inr ⟨e, there, rfl⟩
  | scale name replicas =>
    cases replicas <;> obtain ⟨e, there, rfl⟩ := Option.map_eq_some_iff.1 h <;>
      exact .inr ⟨e, there, rfl⟩

/-- A request that is carried out leaves every module under its own name. -/
theorem Table.Named.carryOut {t : Table} (named : t.Named) (now : Instant) (r : Request) :
    (t.carryOut now r).Named := by
  intro n e h
  rw [get?_carryOut] at h
  split at h
  · rename_i own
    rcases Request.name_onEntry h with name | ⟨e', there, name⟩
    · rw [name, own]
    · rw [name, named n e' there]
  · exact named n e h

namespace Entry

theorem same_landed (now : Instant) (m : Module) : (landed now m).report.same m = true := by
  unfold landed
  split <;> exact m.same_refl

theorem same_adjusted (now : Instant) {e : Entry} {new : Module}
    (only : e.report.differsOnlyInStatus new = true) :
    (e.adjusted new.status now).report.same new = true := by
  have same := Module.same_of_differsOnlyInStatus only
  unfold adjusted
  split <;> rename_i status <;> rw [status] at same <;> exact same

end Entry

/-! ### What is planned for a difference -/

/-- A name has a command that changes its module exactly if the difference touches it. -/
theorem Planner.any_isChange_iff (p : Planner) (ctx : PlanContext) (now : Instant)
    (told : RestartState) (desired current : ModuleSet) (n : String) :
    (p.commandsFor ctx now told (desired.fate current n)).any Command.isChange = true ↔
      (desired.diff current).touches n = true := by
  rw [ModuleSet.touches_diff_iff]
  cases hf : desired.fate current n with
  | absent =>
    obtain ⟨undesired, absent⟩ := ModuleSet.fate_eq_absent_iff.1 hf
    simp [commandsFor, undesired, absent, ModuleSet.Agree]
  | gone old =>
    obtain ⟨undesired, there⟩ := ModuleSet.fate_eq_gone_iff.1 hf
    simp [commandsFor, Target.isChange_remove, undesired, there, ModuleSet.Agree]
  | added new =>
    obtain ⟨wanted, absent⟩ := ModuleSet.fate_eq_added_iff.1 hf
    simp [commandsFor, PlanContext.isChange_bring, wanted, absent, ModuleSet.Agree]
  | adjusted old new =>
    obtain ⟨wanted, there, only⟩ := ModuleSet.fate_eq_adjusted_iff.1 hf
    simp [commandsFor, Target.isChange_update, wanted, there, ModuleSet.Agree,
      Module.not_same_of_differsOnlyInStatus only]
  | replaced old new =>
    obtain ⟨wanted, there, differ, -⟩ := ModuleSet.fate_eq_replaced_iff.1 hf
    simp [commandsFor, Target.isChange_remove, wanted, there, ModuleSet.Agree, differ]
  | kept m =>
    obtain ⟨there, new, wanted, same⟩ := ModuleSet.fate_eq_kept_iff.1 hf
    simp only [commandsFor, wanted, there, ModuleSet.Agree, same, not_true_eq_false, iff_false]
    cases asked : p.policyCommand m told now with
    | none => simp
    | some c => simp [(Due.iff_policyCommand.2 asked).isChange]

/-- A plan changes exactly the names that the difference touches. -/
theorem Planner.touches_iff_planned {p : Planner} {st : StateStore σ} {desired current : ModuleSet}
    {ctx : PlanContext} {now : Instant} {s s' : σ} {plan : Plan Action}
    (planned : p.plan st desired current ctx now s = (.ok plan, s')) (n : String) :
    (desired.diff current).touches n = true ↔
      plan.commands.any (fun c => c.module == n && c.isChange) = true := by
  rw [← p.any_isChange_iff ctx now (st.told (keptNames desired current) s n) desired current n,
    ← p.filter_commands, ← (plan_ok planned).2.1, List.any_filter]

/-! ### The commands of one name

If the commands of other modules leave a view alone, those of one name take their course on it as if
they were alone, and they all succeed if everything does. -/

section

variable {V : Type} {p : Planner} {r : Runner} {h : Host σ} {view : σ → V} {n : String}
  {st : StateStore σ} {desired current : ModuleSet} {ctx : PlanContext} {now : Instant}
  {s s₁ s₂ : σ} {plan : Plan Action} {result : CycleResult} (keeps : h.toSignals.Keeps view)
  (frame : ∀ c, (∀ a ∈ c.leaves, Labelled.module a ≠ n) →
    ∀ ok v v', r.Does (Action.behaviour h) view c ok v v' → v' = v)
  (planned : p.plan st desired current ctx now s = (.ok plan, s₁))
  (ran : r.run h.toSignals (Action.behaviour h) plan s₁ = (result, s₂))

include keeps frame planned ran

theorem Planner.course_of_name :
    Course (r.Does (Action.behaviour h) view)
      (p.commandsFor ctx now (st.told (keptNames desired current) s n) (desired.fate current n))
      (result.outcomesFor n) (view s₁) (view s₂) := by
  have course := r.run_course (Action.behaviour h) keeps ran
  rw [(plan_ok planned).2.1] at course
  have alone := course.filter (n := n) fun c hc other => frame c fun a ha =>
    (p.module_of_mem_leaves _ _ _ _ _ _ hc ha).symm ▸ other
  rwa [p.filter_commands] at alone

theorem Planner.chained_of_name (success : result.isSuccess = true) :
    Chained (r.Does (Action.behaviour h) view)
      (p.commandsFor ctx now (st.told (keptNames desired current) s n) (desired.fate current n))
      (view s₁) (view s₂) := by
  rw [CycleResult.isSuccess, Bool.and_eq_true, Bool.not_eq_true'] at success
  have full := (r.run_course (Action.behaviour h) keeps ran).length_filter n
    (r.length_run _ ran success.1)
  rw [(plan_ok planned).2.1, p.filter_commands] at full
  refine (course_of_name keeps frame planned ran).chained full (List.all_eq_true.2 fun o ho => ?_)
  exact List.all_eq_true.1 success.2 o (List.mem_filter.1 ho).1

end

/-! ### One name -/

namespace Host.IsDevice

open ModuleSet (Agree)

variable {h : Host σ} {table : σ → Table} (device : h.IsDevice table) {p : Planner}
  (host : p.target.place = .host) {r : Runner} {ctx : PlanContext} {now : Instant}
  {told : RestartState} {desired current : ModuleSet} {n : String} {v v' : Option Entry}
  {os : List Outcome}

/-- What is observed does not count. -/
theorem agree_report {wanted : Option Module} :
    Agree wanted (v.map Entry.report) ↔ Agree wanted (v.map Entry.module) := by
  cases wanted <;> cases v <;> exact Iff.rfl

include device host

/-- What is done for a module that is to stay does not show in its declaration. -/
theorem declaration_kept {m : Module} (own : m.name = n)
    (course : Course (r.Does (Action.behaviour h) (entryAt table n))
      (p.policyCommand m told now).toList os v v') :
    v'.map Entry.module = v.map Entry.module := by
  cases asked : p.policyCommand m told now with
  | none =>
    rw [asked] at course
    cases course
    rfl
  | some c =>
    rw [asked] at course
    cases course with
    | stop => rfl
    | @next _ _ o _ _ _ _ _ does later =>
      cases later
      cases Due.iff_policyCommand.2 asked with
      | restart =>
        have does := device.does_restart host own does
        split at does
        · obtain ⟨s, rfl⟩ := does
          rw [Option.map_map]
          rfl
        · rw [does]
      | stop =>
        rw [device.does_stop host own does]
        split
        · rw [Option.map_map]
          rfl
        · rfl
      | reset =>
        subst own
        rw [device.does_reset does]

/-- A module that is brought is as desired if that succeeds; if not, nothing changed or nothing is
there. -/
theorem brought {new : Module} (own : new.name = n)
    (course : Course (r.Does (Action.behaviour h) (entryAt table n)) [ctx.bring p.target new] os
      v v') :
    lastSucceeded Command.isChange [ctx.bring p.target new] os = true ∧
        Agree (some new) (v'.map Entry.report) ∨
      lastSucceeded Command.isChange [ctx.bring p.target new] os = false ∧
        (v' = v ∨ v' = none) := by
  rcases course.single (ctx.isChange_bring p.target new) with ⟨yes, does⟩ | ⟨no, rfl | does⟩
  · obtain ⟨s, rfl⟩ := device.does_create host own does
    exact .inl ⟨yes, Entry.same_landed (h.now s) new⟩
  · exact .inr ⟨no, .inl rfl⟩
  · exact .inr ⟨no, device.does_create host own does⟩

/-- After a run a module is as desired if and only if it was before or its last change succeeded. -/
theorem agree_iff (shown : current.get? n = v.map Entry.report)
    (course : Course (r.Does (Action.behaviour h) (entryAt table n))
      (p.commandsFor ctx now told (desired.fate current n)) os v v') :
    Agree (desired.get? n) (v'.map Entry.report) ↔ Agree (desired.get? n) (current.get? n) ∨
      lastSucceeded Command.isChange (p.commandsFor ctx now told (desired.fate current n)) os =
        true := by
  cases hf : desired.fate current n with
  | absent =>
    rw [hf, Planner.commandsFor] at course
    cases course
    simp [shown, Planner.commandsFor, lastSucceeded]
  | gone old =>
    obtain ⟨undesired, there⟩ := ModuleSet.fate_eq_gone_iff.1 hf
    rw [hf, Planner.commandsFor] at course
    have own := current.name_of_get? there
    rcases course.single (p.target.isChange_remove old) with ⟨yes, does⟩ | ⟨no, rfl | does⟩
    · rw [device.does_remove host own does, Planner.commandsFor, yes, undesired]
      simp [Agree]
    · simp [Planner.commandsFor, no, shown]
    · rw [device.does_remove host own does]
      simp [Planner.commandsFor, no, shown]
  | added new =>
    obtain ⟨wanted, absent⟩ := ModuleSet.fate_eq_added_iff.1 hf
    rw [hf, Planner.commandsFor] at course
    rw [Planner.commandsFor, wanted, absent]
    rcases device.brought host (desired.name_of_get? wanted) course with
      ⟨yes, agree⟩ | ⟨no, rfl | rfl⟩
    · simp [yes, agree]
    · simp [no, ← shown, absent]
    · simp [no]
  | adjusted old new =>
    obtain ⟨wanted, there, only⟩ := ModuleSet.fate_eq_adjusted_iff.1 hf
    rw [hf, Planner.commandsFor] at course
    rw [Planner.commandsFor, wanted, shown]
    obtain ⟨e, rfl, rfl⟩ := Option.map_eq_some_iff.1 (shown ▸ there)
    have own := desired.name_of_get? wanted
    rcases course.single (p.target.isChange_update e.report new) with ⟨yes, does⟩ | ⟨no, rfl | does⟩
    · obtain ⟨s, rfl⟩ := device.does_update host own rfl does
      simp [yes, Agree, Entry.same_adjusted (h.now s) only]
    · simp [no]
    · rw [device.does_update host own rfl does]
      simp [no]
  | replaced old new =>
    obtain ⟨wanted, there, differ, -⟩ := ModuleSet.fate_eq_replaced_iff.1 hf
    rw [hf, Planner.commandsFor] at course
    rw [Planner.commandsFor, wanted, there]
    have own := current.name_of_get? there
    obtain ⟨counts, v₁, start, later⟩ := course.pair (ctx.isChange_bring p.target new)
    -- between the two commands the old module is there, or none
    have between : v₁ = v ∨ v₁ = none := by
      rcases start with rfl | ⟨ok, does⟩
      · exact .inl rfl
      · rw [device.does_remove host own does]
        cases ok <;> simp
    rw [counts]
    rcases device.brought host (desired.name_of_get? wanted) later with ⟨yes, agree⟩ | ⟨no, after⟩
    · simp [yes, agree]
    · have unfinished : v' = v ∨ v' = none := after.elim (· ▸ between) .inr
      rcases unfinished with rfl | rfl
      · simp [no, ← shown, there]
      · simp [no, differ, Agree]
  | kept m =>
    obtain ⟨there, new, wanted, same⟩ := ModuleSet.fate_eq_kept_iff.1 hf
    rw [hf, Planner.commandsFor] at course
    have kept := device.declaration_kept host (current.name_of_get? there) course
    have agree : Agree (desired.get? n) (current.get? n) := by simp [Agree, wanted, there, same]
    have unasked : (p.commandsFor ctx now told (.kept m)).any Command.isChange = false := by
      rw [← hf, Bool.eq_false_iff, Ne, p.any_isChange_iff, ModuleSet.touches_diff_iff, not_not]
      exact agree
    rw [lastSucceeded_of_not_any unasked, shown, agree_report, kept, ← agree_report]
    simp

/-! ### All names -/

omit host in
theorem policyCommands_keeps (now : Instant) (ms : List Module) (s : σ) :
    table (p.policyCommands h.store now ms s).2 = table s :=
  Planner.policyCommands_moves (R := fun s s' => table s' = table s) device.get p now ms s

variable {s s₁ s₂ : σ} {plan : Plan Action} {result : CycleResult}

omit host in
/-- The commands of a name take their course on its entry as if they were alone. -/
theorem course_of_name (n : String)
    (planned : p.plan h.store desired current ctx now s = (.ok plan, s₁))
    (ran : r.run h.toSignals (Action.behaviour h) plan s₁ = (result, s₂)) :
    Course (r.Does (Action.behaviour h) (entryAt table n))
      (p.commandsFor ctx now (h.store.told (Planner.keptNames desired current) s n)
        (desired.fate current n))
      (result.outcomesFor n) (entryAt table n s) (entryAt table n s₂) := by
  have alone := Planner.course_of_name (device.entry_keeps n)
    (fun _ other _ _ _ does => device.does_frame other does) planned ran
  rwa [(Planner.plan_ok planned).2.2, entryAt, device.policyCommands_keeps] at alone

omit host in
/-- After a cycle the table shows a set again: every module is still under its own name. -/
theorem exists_shown (shows : (table s).Shows current)
    (planned : p.plan h.store desired current ctx now s = (.ok plan, s₁))
    (ran : r.run h.toSignals (Action.behaviour h) plan s₁ = (result, s₂)) :
    ∃ after, (table s₂).Shows after := by
  have : IsPreorder σ fun s s' => (table s).Named → (table s').Named :=
    { refl := fun _ => id, trans := fun _ _ _ h₁ h₂ => h₂ ∘ h₁ }
  have same : ∀ s s', table s' = table s → (table s).Named → (table s').Named :=
    fun s s' e => e ▸ id
  have named₁ : (table s₁).Named := by
    rw [(Planner.plan_ok planned).2.2, device.policyCommands_keeps]
    exact shows.named
  have named₂ := r.run_moves (R := fun s s' => (table s).Named → (table s').Named)
    (fun s => same _ _ (device.keeps.pause s)) (fun d s => same _ _ (device.keeps.wait d s))
    (fun c _ a _ => device.leaf_moves same fun r s s' _ e named => e ▸ named.carryOut (h.now s) r)
    ran named₁
  exact ⟨_, Table.shows_shown named₂⟩

/-- The difference after a run, name by name. -/
theorem agree_after (n : String) (shows : (table s).Shows current)
    (planned : p.plan h.store desired current ctx now s = (.ok plan, s₁))
    (ran : r.run h.toSignals (Action.behaviour h) plan s₁ = (result, s₂)) :
    Agree (desired.get? n) ((entryAt table n s₂).map Entry.report) ↔
      Agree (desired.get? n) (current.get? n) ∨
        lastSucceeded (fun c => c.module == n && c.isChange) plan.commands result.outcomes =
          true := by
  have course := r.run_course (Action.behaviour h) (device.entry_keeps n) ran
  have alone := device.course_of_name n planned ran
  rw [course.lastSucceeded_filter, (Planner.plan_ok planned).2.1, p.filter_commands]
  exact device.agree_iff host (shows n) alone

/-- If everything succeeded, every module is as desired. -/
theorem agree_of_success (n : String) (shows : (table s).Shows current)
    (planned : p.plan h.store desired current ctx now s = (.ok plan, s₁))
    (ran : r.run h.toSignals (Action.behaviour h) plan s₁ = (result, s₂))
    (success : result.isSuccess = true) :
    Agree (desired.get? n) ((entryAt table n s₂).map Entry.report) := by
  rw [CycleResult.isSuccess, Bool.and_eq_true, Bool.not_eq_true'] at success
  refine (device.agree_after host n shows planned ran).2 (or_iff_not_imp_left.2 fun disagree => ?_)
  have asked := (Planner.touches_iff_planned planned n).1
    ((ModuleSet.touches_diff_iff desired current n).2 disagree)
  exact lastSucceeded_of_all (r.length_run _ ran success.1) success.2 asked

/-- **What is left to be done.** After a run of the plan the difference touches a name if and only
if it did before and the last change of the name's module did not succeed. So everything is as
desired if everything succeeded, and what is left has a change in every plan that is made next. -/
theorem residual_work (shows : (table s).Shows current)
    (planned : p.plan h.store desired current ctx now s = (.ok plan, s₁))
    (ran : r.run h.toSignals (Action.behaviour h) plan s₁ = (result, s₂)) :
    ∃ after, (table s₂).Shows after ∧
      (∀ n, (desired.diff after).touches n = true ↔ (desired.diff current).touches n = true ∧
        lastSucceeded (fun c => c.module == n && c.isChange) plan.commands result.outcomes =
          false) ∧
      (result.isSuccess = true → after.same desired = true) ∧
      ∀ n, (desired.diff after).touches n = true →
        ∀ {ctx' now' s' s'' plan'}, p.plan h.store desired after ctx' now' s' = (.ok plan', s'') →
          ∃ c ∈ plan'.commands, c.module = n ∧ c.isChange = true := by
  obtain ⟨after, shown⟩ := device.exists_shown shows planned ran
  have agree := fun n => device.agree_after host n shows planned ran
  simp only [← shown _] at agree
  refine ⟨_, shown, fun n => ?_, fun success => ?_, fun n left ctx' now' s' s'' plan' planned' =>
    ?_⟩
  · rw [ModuleSet.touches_diff_iff, ModuleSet.touches_diff_iff, agree, not_or, Bool.not_eq_true]
  · exact ModuleSet.same_of_agree fun n =>
      shown n ▸ device.agree_of_success host n shows planned ran success
  · obtain ⟨c, mem, change⟩ := List.any_eq_true.1 ((Planner.touches_iff_planned planned' n).1 left)
    rw [Bool.and_eq_true, beq_iff_eq] at change
    exact ⟨c, mem, change⟩

end Host.IsDevice

open Planner in
/-- The sample on a device on which `c` cannot be created. -/
theorem residual_work_sample :
    ∃ plan s₁ result s₂ after,
      Sample.planner.plan (Rehearsal.steady .epoch).store Sample.wanted Sample.there {} .epoch
        { table := Sample.there.table
          rules := [{ call := "create c", error := some (.internal "no space") }] } =
        (.ok plan, s₁) ∧
      ({} : Runner).run (Rehearsal.steady .epoch).toSignals
        (Action.behaviour (Rehearsal.steady .epoch)) plan s₁ = (result, s₂) ∧
      s₂.table.Shows after ∧
      ∀ n, (Sample.wanted.diff after).touches n = true ↔
        (Sample.wanted.diff Sample.there).touches n = true ∧
          lastSucceeded (fun c => c.module == n && c.isChange) plan.commands result.outcomes =
            false := by
  have planned := Sample.planner.plan_eq (Rehearsal.steady .epoch).store Sample.wanted Sample.there
    {} .epoch { table := Sample.there.table
                rules := [{ call := "create c", error := some (.internal "no space") }] }
    (by decide)
  obtain ⟨after, shown, left, -⟩ := Host.IsDevice.residual_work
    (Rehearsal.steady_isDevice .epoch) rfl Sample.there.shows_table planned (r := {}) rfl
  exact ⟨_, _, _, _, after, planned, rfl, shown, left⟩

end Steward
