/-
# What one run leaves in the store

What is stored after a run is told by the plan and the outcomes. A restart that was tried `k` times
counts `k` more, as far as 32 bits go, and its time is that of the last attempt; that attempts
failed, and were taken back, makes no difference. A count that is taken back is zero and keeps its
time. Nothing else changes, and no name is ever forgotten (`Host.Remembers.run_settles`).

This is so on a host whose store does not fail, where nobody cancels and no request fails by
cancellation. There every attempt at a restart comes to its two calls, the record and then the
request (`Host.Remembers.attempted_restart_live`), so the calls of `k` attempts are `k` such pairs
(`Retried`). All other commands of the plan are quiet for the module.

Key definitions: `Retried`, `Restarted`, `Settles`.
Key theorems: `Planner.Builds.turn`, `Host.Remembers.retried_of_tried`,
`Host.Remembers.settles_restart`, `Host.Remembers.run_settles`.
-/
import Steward.Proofs.Cycle.Cancellation
import Steward.Proofs.Cycle.Isolation
import Steward.Proofs.Restart.Containment

namespace Steward

variable {σ : Type}

/-! ### What is planned for a module -/

namespace Planner

variable {p : Planner} {plan : Plan Action} {n : String} {c : Command Action}

/-- A task that is neither a restart nor a reset is silent about every module. -/
theorem Task.silent {now : Instant} {told : RestartState} (task : Task p now n told c)
    (other : c.kind ≠ .restart ∧ c.kind ≠ .resetRestarts) (name : String) : Silent name c := by
  cases task with
  | handle _ handles => exact fun a ha => (handles a ha).not_counts
  | restart => exact absurd rfl other.1
  | reset => exact absurd rfl other.2

/-- Every command of a plan is a task of its module. -/
theorem Builds.task (built : p.Builds plan) (hc : c ∈ plan.commands) :
    ∃ now told, Task p now c.module told c := by
  cases built with
  | towards planned =>
    rw [(plan_ok planned).2.1] at hc
    exact ⟨_, _, p.task_of_mem _ _ _ _ _ _ hc⟩
  | shutdown current =>
    obtain ⟨m, -, rfl⟩ := List.mem_map.1 hc
    exact ⟨.epoch, .never, .handle (p.target.module_stop m).symm (p.target.handles_stop m) (by simp)
      (by simp)⟩

theorem Builds.silent_of_other (built : p.Builds plan) (hc : c ∈ plan.commands)
    (other : c.module ≠ n) : Silent n c := by
  obtain ⟨now, told, task⟩ := built.task hc
  exact task.silent_of_ne other

/-- A module that is restarted, or whose count is taken back, has no other command. -/
theorem Builds.alone (built : p.Builds plan) (hc : c ∈ plan.commands)
    (kind : c.kind = .restart ∨ c.kind = .resetRestarts) :
    plan.commands.filter (·.module == c.module) = [c] := by
  cases built with
  | @towards _ st desired current ctx now s _ _ planned =>
    rw [(plan_ok planned).2.1] at hc ⊢
    obtain ⟨m, kept, due⟩ := p.due_of_kind st desired current ctx now s hc kind
    rw [filter_commands, kept, commandsFor, Due.iff_policyCommand.1 due]
    rfl
  | shutdown current =>
    obtain ⟨m, -, rfl⟩ := List.mem_map.1 hc
    simp at kind

/-- Either nothing counts for a module, or it has one command that does, and all others are silent
about it. -/
theorem Builds.turn (built : p.Builds plan) (n : String) :
    ((∀ c ∈ plan.commands, Silent n c) ∧
      ∀ c ∈ plan.commands, c.module = n → c.kind ≠ .restart ∧ c.kind ≠ .resetRestarts) ∨
    ∃ before c after, plan.commands = before ++ c :: after ∧
      plan.commands.filter (·.module == n) = [c] ∧ (∀ c' ∈ before, Silent n c') ∧
      (∀ c' ∈ after, Silent n c') ∧
      (c = .leaf (.resetRestarts n) ∨ ∃ m, m.name = n ∧
        c = .group .restart n [.leaf (.recordRestart n), p.target.restart m]) := by
  by_cases counts : ∃ c ∈ plan.commands, c.module = n ∧
      (c.kind = .restart ∨ c.kind = .resetRestarts)
  · obtain ⟨c, hc, rfl, kind⟩ := counts
    have only := built.alone hc kind
    obtain ⟨before, after, split, others, -, later⟩ := List.filter_eq_cons_iff.1 only
    have others' := List.filter_eq_nil_iff.1 later
    refine .inr ⟨before, c, after, split, only, fun c' hc' => ?_, fun c' hc' => ?_, ?_⟩
    · exact built.silent_of_other (split ▸ List.mem_append_left _ hc')
        (by simpa using others c' hc')
    · exact built.silent_of_other (split ▸ List.mem_append_right _ (List.mem_cons_of_mem _ hc'))
        (by simpa using others' c' hc')
    · obtain ⟨now, told, task⟩ := built.task hc
      generalize name : c.module = n at task
      cases task with
      | handle _ _ restart reset => exact absurd kind (by simp [restart, reset])
      | @restart m own => exact .inr ⟨m, own, rfl⟩
      | reset => exact .inl rfl
  · have other : ∀ c ∈ plan.commands, c.module = n →
        c.kind ≠ .restart ∧ c.kind ≠ .resetRestarts := fun c hc own =>
      ⟨fun e => counts ⟨c, hc, own, .inl e⟩, fun e => counts ⟨c, hc, own, .inr e⟩⟩
    refine .inl ⟨fun c hc => ?_, other⟩
    by_cases own : c.module = n
    · obtain ⟨now, told, task⟩ := built.task hc
      exact task.silent (other c hc own) n
    · exact built.silent_of_other hc own

end Planner

/-! ### Attempts at a restart -/

/-- The calls of some attempts at a restart, two for each. -/
def callsOf (tries : List (Moment σ × Moment σ)) : List (Moment σ) :=
  tries.flatMap fun t => [t.1, t.2]

/-- The two calls of an attempt: the restart is recorded, then the runtime is asked for it. -/
structure RestartCalls (n : String) (t : Moment σ × Moment σ) : Prop where
  put : t.1.call = .put n
  asked : t.2.call = .request (.restart n) ∨ t.2.call = .request (.rollout n)

/-- What some attempts at a restart make of the view of a module. -/
structure Retried (n : String) (v : Option RestartState × List (Moment σ))
    (tries : List (Moment σ × Moment σ)) (v' : Option RestartState × List (Moment σ)) : Prop where
  calls : v'.2 = v.2 ++ callsOf tries
  each : ∀ t ∈ tries, RestartCalls n t
  count : (counted v'.1).toNat = min ((counted v.1).toNat + tries.length) 4294967295
  last : ∀ t, tries.getLast? = some t → ∃ stored, v'.1 = some stored ∧ stored.last = t.1.time

namespace Retried

variable {n : String} {v v' v'' : Option RestartState × List (Moment σ)}
  {tries : List (Moment σ × Moment σ)}

theorem nil (v : Option RestartState × List (Moment σ)) : Retried n v [] v where
  calls := (List.append_nil v.2).symm
  each _ ht := absurd ht List.not_mem_nil
  count := by
    have bound := (counted v.1).toNat_lt
    rw [List.length_nil]
    omega
  last _ ht := nomatch ht

/-- One more attempt counts one more, unless the count is at its end. -/
theorem snoc (retried : Retried n v tries v') {t : Moment σ × Moment σ} (calls : RestartCalls n t)
    (two : v''.2 = v'.2 ++ [t.1, t.2])
    (stored : v''.1 = some (v'.1.elim (.first t.1.time) (.record t.1.time))) :
    Retried n v (tries ++ [t]) v'' where
  calls := by
    rw [two, retried.calls, List.append_assoc, callsOf, callsOf, List.flatMap_append]
    rfl
  each u hu := by
    rcases List.mem_append.1 hu with hu | hu
    · exact retried.each u hu
    · rw [List.mem_singleton.1 hu]
      exact calls
  count := by
    have one := Sound.count_record v'.1 t.1.time
    rw [stored, one, retried.count, List.length_append, List.length_singleton]
    omega
  last u hu := by
    rw [List.getLast?_append, List.getLast?_singleton, Option.some_or] at hu
    obtain rfl := Option.some.inj hu
    refine ⟨_, stored, ?_⟩
    cases v'.1 <;> rfl

end Retried

namespace Host.Remembers

variable {h : Host σ} {states : σ → States} (remembers : h.Remembers states)
  (live : h.toSignals.Live) {n : String} {ok : Bool}
  {v v' : Option RestartState × List (Moment σ)}

section

include live

omit remembers in
theorem recorded_live : h.recorded.toSignals.Live where
  cancelled x := live.cancelled x.1
  wait d x := live.wait d x.1

include remembers

/-- A leaf that nobody cancels is carried out. -/
theorem carried_of_live {a : Action}
    (attempt : Attempted (Action.behaviour h.recorded) (watched states n) (.leaf a) ok v v') :
    Carried h states n a ok v v' := by
  obtain ⟨x, rfl, rfl, rfl⟩ := attempt
  simp only [Command.execute, Action.behaviour, a.execute_live (recorded_live live)]
  exact ⟨_, (remembers.watched_keeps n).isCancelled .cycle x, rfl, rfl⟩

/-- An attempt at a restart records it and asks for it. Taking the record back does nothing. -/
theorem attempted_restart_live {t : Target} {m : Module} (own : m.name = n)
    (attempt : Attempted (Action.behaviour h.recorded) (watched states n)
      (.group .restart n [.leaf (.recordRestart n), t.restart m]) ok v v') :
    ∃ calls : Moment σ × Moment σ, RestartCalls n calls ∧ v'.2 = v.2 ++ [calls.1, calls.2] ∧
      v'.1 = some (v.1.elim (.first calls.1.time) (.record calls.1.time)) := by
  obtain ⟨a, leaf⟩ := t.restart_eq_leaf m
  have both : ∀ {ok₁ ok₂ v₁ v₂}, Attempted (Action.behaviour h.recorded) (watched states n)
      (.leaf (.recordRestart n)) ok₁ v v₁ →
      Attempted (Action.behaviour h.recorded) (watched states n) (t.restart m) ok₂ v₁ v₂ →
      ∃ calls : Moment σ × Moment σ, RestartCalls n calls ∧ v₂.2 = v.2 ++ [calls.1, calls.2] ∧
        v₂.1 = some (v.1.elim (.first calls.1.time) (.record calls.1.time)) := by
    intro ok₁ ok₂ v₁ v₂ first second
    obtain ⟨-, e₁, put, one, -, stored⟩ :=
      remembers.record_carried (remembers.carried_of_live live first)
    rw [leaf] at second
    obtain ⟨e₂, asked, one', -, same⟩ :=
      remembers.restart_carried own leaf (remembers.carried_of_live live second)
    refine ⟨(e₁, e₂), ⟨put, asked⟩, ?_, same.trans stored⟩
    rw [one', one, List.append_assoc]
    rfl
  cases attempt.together with
  | goes first later =>
    cases later with
    | goes second done =>
      cases done
      exact both first second
  | fails first =>
    -- a record does not fail
    have recorded := (remembers.record_carried (remembers.carried_of_live live first)).1
    cases recorded
  | backs first later back =>
    obtain rfl := undone_record back
    cases later with
    | fails second => exact both first second
    | backs _ rest => cases rest

/-- A restart that was tried `k` times made the calls of `k` attempts. -/
theorem retried_of_tried {t : Target} {m : Module} (own : m.name = n) {k : Nat}
    (tried : Tried (Attempted (Action.behaviour h.recorded) (watched states n)
      (.group .restart n [.leaf (.recordRestart n), t.restart m])) k ok v v') :
    ∃ tries, tries.length = k ∧ Retried n v tries v' := by
  have step : ∀ {j ok v₁ v₂}, j < k → (∃ tries, tries.length = j ∧ Retried n v tries v₁) →
      Attempted (Action.behaviour h.recorded) (watched states n)
        (.group .restart n [.leaf (.recordRestart n), t.restart m]) ok v₁ v₂ →
      ∃ tries, tries.length = j + 1 ∧ Retried n v tries v₂ := by
    rintro j ok v₁ v₂ - ⟨tries, rfl, retried⟩ attempt
    obtain ⟨calls, made, two, stored⟩ := remembers.attempted_restart_live live own attempt
    exact ⟨tries ++ [calls], by simp, retried.snoc made two stored⟩
  have all := tried.counted (Q := fun j w => ∃ tries, tries.length = j ∧ Retried n v tries w) step
    (j := 0) (by omega) ⟨[], rfl, .nil v⟩
  rwa [Nat.zero_add] at all

/-- A count that is taken back, however often that is tried, is zero. -/
theorem reset_of_tried {k : Nat}
    (tried : Tried (Attempted (Action.behaviour h.recorded) (watched states n)
      (.leaf (.resetRestarts n))) k ok v v') : v'.1 = v.1.map .reset := by
  induction tried with
  | last attempt =>
    obtain ⟨e, -, -, -, stored⟩ := remembers.reset_carried (remembers.carried_of_live live attempt)
    exact stored
  | again attempt _ ih =>
    obtain ⟨e, -, -, -, stored⟩ := remembers.reset_carried (remembers.carried_of_live live attempt)
    rw [ih, stored, Option.map_map]
    rfl

end

end Host.Remembers

/-! ### Runs -/

/-- What becomes of a module that is restarted: as many attempts as the outcome tells, each counted
and dated by its record. -/
structure Restarted (n : String) (o : Outcome) (calls : List (Moment σ))
    (before : Option RestartState) (stored : RestartState) : Prop where
  attempts : ∃ past tries later, calls = past ++ callsOf tries ++ later ∧
    (∀ e ∈ past ++ later, ¬ e.call.counts n) ∧ (∀ t ∈ tries, RestartCalls n t) ∧
    tries.length = o.verdict.attempts.toNat ∧
    ∃ t, tries.getLast? = some t ∧ stored.last = t.1.time
  count : stored.count.toNat =
    min ((counted before).toNat + o.verdict.attempts.toNat) 4294967295

/-- What is stored of a module before and after a run, by the commands of the plan, their outcomes
and the calls. -/
structure Settles (n : String) (cs : List (Command Action)) (os : List Outcome)
    (calls : List (Moment σ)) (before after : Option RestartState) : Prop where
  /-- A restart has one outcome, and all its attempts count, whether they succeeded or not. -/
  restarted : ∀ c ∈ cs, c.module = n → c.kind = .restart → ∃ o stored,
    os.filter (·.module == n) = [o] ∧ o.kind = .restart ∧ after = some stored ∧
      Restarted n o calls before stored
  /-- A reset takes the count back and leaves the time. -/
  reset : ∀ c ∈ cs, c.module = n → c.kind = .resetRestarts → after = before.map .reset
  /-- Nothing else touches what is stored. -/
  untouched : (∀ c ∈ cs, c.module = n → c.kind ≠ .restart ∧ c.kind ≠ .resetRestarts) →
    after = before
  /-- What is stored is never forgotten. -/
  kept : before.isSome = true → after.isSome = true

/-! A module that has one command only. -/

section

variable {cs : List (Command Action)} {c c' : Command Action} {n : String}
  (only : cs.filter (·.module == n) = [c])

include only

theorem mem_of_only : c ∈ cs :=
  (List.mem_filter.1 (only ▸ List.mem_singleton_self c)).1

theorem eq_of_only (hc : c' ∈ cs) (named : c'.module = n) : c' = c :=
  List.mem_singleton.1 (only ▸ List.mem_filter.2 ⟨hc, by simpa using named⟩)

end

/-- If a module has one command, it has one outcome. -/
theorem outcomes_of_filter {plan : Plan Action} {result : CycleResult} {n : String}
    {c : Command Action} (labels : result.outcomes.map Outcome.label = plan.labels)
    (only : plan.commands.filter (·.module == n) = [c]) {o : Outcome}
    (ho : o ∈ result.outcomes) (own : o.module = n) :
    result.outcomes.filter (·.module == n) = [o] := by
  have same : (result.outcomes.filter (·.module == n)).map Outcome.label =
      (plan.commands.filter (·.module == n)).map fun c => (c.kind, c.module, c.text) := by
    have both := congrArg (List.filter fun l => l.2.1 == n) labels
    rwa [Plan.labels, List.filter_map, List.filter_map] at both
  rw [only] at same
  have one := congrArg List.length same
  rw [List.length_map, List.length_map] at one
  obtain ⟨o', single⟩ := List.length_eq_one_iff.1 one
  have mem : o ∈ result.outcomes.filter (·.module == n) :=
    List.mem_filter.2 ⟨ho, by simpa using own⟩
  rw [single] at mem ⊢
  rw [List.mem_singleton.1 mem]

namespace Host.Remembers

variable {h : Host σ} {states : σ → States} (remembers : h.Remembers states) {n : String}

/-- Silent commands are quiet together. -/
theorem runAll_quiet (remembers : h.Remembers states) (r : Runner) {cs : List (Command Action)}
    (silent : ∀ c ∈ cs, Silent n c) (x : σ × List (Moment σ)) :
    Quiet states n (watched states n x) (watched states n
      (r.runAll h.recorded.toSignals (Action.behaviour h.recorded) cs x).2) := by
  have same : ∀ x x', watched states n x' = watched states n x →
      Quiet states n (watched states n x) (watched states n x') := by
    intro x x' e
    rw [e]
    exact .refl _
  have keeps := remembers.watched_keeps n
  exact Runner.runAll_moves (R := fun x x' => Quiet states n (watched states n x)
      (watched states n x')) (fun x => same _ _ (keeps.pause x))
    (fun d x => same _ _ (keeps.wait d x)) cs
    (fun c hc a ha => remembers.leaf_quiet (silent c hc a ha)) x

variable (live : h.toSignals.Live)
  (uncancelled : ∀ t r s e, (h.request t r s).1 = .error e → e.isCancelled = false)
  {p : Planner} {plan : Plan Action} {r : Runner} {s s' : σ} {result : CycleResult}
  {calls : List (Moment σ)}
  (ran : r.run h.recorded.toSignals (Action.behaviour h.recorded) plan (s, []) =
    (result, (s', calls)))

include remembers live uncancelled

/-- No leaf fails by cancellation, recorded or not. -/
theorem recorded_uncancelled (a : Action) (t : Token) (x : σ × List (Moment σ)) (e : Error)
    (failed : ((Action.behaviour h.recorded).execute t a x).1 = .error e) :
    e.isCancelled = false := by
  have unrecorded := congrArg Prod.fst (h.recorded_behaviour.execute t a x)
  exact remembers.leaf_uncancelled live uncancelled a t x.1 e (unrecorded.symm.trans failed)

include ran

/-- If all other commands are silent about the module, what is stored changes by the attempts at one
command, as many as its outcome tells. -/
theorem tried_amid {before after : List (Command Action)} {c : Command Action}
    (split : plan.commands = before ++ c :: after) (front : ∀ c' ∈ before, Silent n c')
    (back : ∀ c' ∈ after, Silent n c') :
    ∃ (o : Outcome) (v v' : Option RestartState × List (Moment σ)), o ∈ result.outcomes ∧
      o.module = c.module ∧ o.kind = c.kind ∧ Quiet states n (stateAt states n s, []) v ∧
      Tried (Attempted (Action.behaviour h.recorded) (watched states n) c)
        o.verdict.attempts.toNat o.isSuccess v v' ∧
      Quiet states n v' (stateAt states n s', calls) := by
  obtain ⟨os₁, os₂, x₁, x₂, x₃, verdict, first, looked, ended, last, outcomes⟩ :=
    r.through_at (Action.behaviour h.recorded) (recorded_live live)
      (fun _ _ a _ => remembers.recorded_uncancelled live uncancelled a) split ran
  have keeps := remembers.watched_keeps n
  have quiet₁ := remembers.runAll_quiet r front (s, [])
  have still := keeps.isCancelled .cycle x₁
  have tried := (r.runCommand_tried (Action.behaviour h.recorded) c keeps x₂).2
  have quiet₂ := remembers.runAll_quiet r back x₃
  rw [first] at quiet₁
  rw [looked] at still
  rw [ended] at tried
  rw [last] at quiet₂
  have mem : (⟨c.module, c.kind, c.text, verdict⟩ : Outcome) ∈ result.outcomes := by
    rw [outcomes]
    exact List.mem_append_right _ List.mem_cons_self
  exact ⟨_, _, _, mem, rfl, rfl, quiet₁, still ▸ tried, quiet₂⟩

/-- A module that has one command, a restart. -/
theorem settles_restart (labels : result.outcomes.map Outcome.label = plan.labels)
    {before after : List (Command Action)} {t : Target} {m : Module} (own : m.name = n)
    (split : plan.commands =
      before ++ .group .restart n [.leaf (.recordRestart n), t.restart m] :: after)
    (only : plan.commands.filter (·.module == n) =
      [.group .restart n [.leaf (.recordRestart n), t.restart m]])
    (front : ∀ c ∈ before, Silent n c) (back : ∀ c ∈ after, Silent n c) :
    Settles n plan.commands result.outcomes calls (stateAt states n s) (stateAt states n s') := by
  obtain ⟨o, v, v', ho, module, kind, ⟨state₁, past, record₁, quiet₁⟩, tried,
    ⟨state₂, later, record₂, quiet₂⟩⟩ :=
    remembers.tried_amid live uncancelled ran split front back
  obtain ⟨tries, number, retried⟩ := remembers.retried_of_tried live own tried
  have some_tries : tries ≠ [] := List.ne_nil_of_length_pos (number ▸ tried.pos)
  have last := List.getLast?_eq_some_getLast some_tries
  obtain ⟨stored, there, time⟩ := retried.last _ last
  have stays : stateAt states n s' = some stored := state₂.trans there
  constructor
  · intro c hc named restart
    refine ⟨o, stored, outcomes_of_filter labels only ho module, kind, stays, ?_, ?_⟩
    · refine ⟨past, tries, later, ?_, fun e he => ?_, retried.each, number, _, last, time⟩
      · rw [retried.calls, record₁, List.nil_append] at record₂
        exact record₂
      · rcases List.mem_append.1 he with he | he
        · exact (quiet₁ e he).1
        · exact (quiet₂ e he).1
    · have count := retried.count
      rw [there, state₁, number] at count
      exact count
  · intro c hc named reset
    rw [eq_of_only only hc named] at reset
    cases reset
  · exact fun none => absurd rfl (none _ (mem_of_only only) rfl).1
  · intro
    rw [stays]
    rfl

/-- A module that has one command, which takes its count back. -/
theorem settles_reset {before after : List (Command Action)}
    (split : plan.commands = before ++ .leaf (.resetRestarts n) :: after)
    (only : plan.commands.filter (·.module == n) = [.leaf (.resetRestarts n)])
    (front : ∀ c ∈ before, Silent n c) (back : ∀ c ∈ after, Silent n c) :
    Settles n plan.commands result.outcomes calls (stateAt states n s) (stateAt states n s') := by
  obtain ⟨o, v, v', -, -, -, ⟨state₁, -⟩, tried, ⟨state₂, -⟩⟩ :=
    remembers.tried_amid live uncancelled ran split front back
  have taken := remembers.reset_of_tried live tried
  rw [state₁] at taken
  have settled : stateAt states n s' = (stateAt states n s).map .reset := state₂.trans taken
  constructor
  · intro c hc named restart
    rw [eq_of_only only hc named] at restart
    cases restart
  · exact fun _ _ _ _ => settled
  · exact fun none => absurd rfl (none _ (mem_of_only only) rfl).2
  · intro there
    rw [settled, Option.isSome_map]
    exact there

omit live uncancelled in
/-- A module about which all commands are silent. -/
theorem settles_silent (silent : ∀ c ∈ plan.commands, Silent n c)
    (other : ∀ c ∈ plan.commands, c.module = n → c.kind ≠ .restart ∧ c.kind ≠ .resetRestarts) :
    Settles n plan.commands result.outcomes calls (stateAt states n s) (stateAt states n s') := by
  have quiet := remembers.runAll_quiet r silent (s, [])
  have ended : (r.runAll h.recorded.toSignals (Action.behaviour h.recorded) plan.commands
      (s, [])).2 = (s', calls) := congrArg Prod.snd ran
  rw [ended] at quiet
  have same : stateAt states n s' = stateAt states n s := quiet.1
  constructor
  · exact fun c hc named restart => absurd restart (other c hc named).1
  · exact fun c hc named reset => absurd reset (other c hc named).2
  · exact fun _ => same
  · exact fun there => same ▸ there

/-- **What one run leaves in the store.** A plan of the planner is run on a host whose store does
not fail, where nobody cancels and no request fails by cancellation. The calls are recorded, which
has no influence on the run, and every command has its outcome. What is stored of each module
afterwards is told by the commands that the plan has for it. Where the plan takes a count back, and
was made from what is stored, a count above zero is there, and zero with the same time is left. -/
theorem run_settles (built : p.Builds plan) :
    r.run h.toSignals (Action.behaviour h) plan s = (result, s') ∧ result.cancelled = false ∧
    result.outcomes.map Outcome.label = plan.labels ∧
    (∀ n, Settles n plan.commands result.outcomes calls (stateAt states n s)
      (stateAt states n s')) ∧
    ∀ desired current ctx now s₀ s₁,
      p.plan h.store desired current ctx now s₀ = (.ok plan, s₁) → states s₀ = states s →
      ∀ c ∈ plan.commands, c.kind = .resetRestarts → ∃ old, stateAt states c.module s = some old ∧
        0 < old.count ∧ stateAt states c.module s' = some ⟨0, old.last⟩ := by
  have unrecorded := h.run_recorded r plan s []
  rw [ran] at unrecorded
  obtain ⟨through, labels⟩ := r.goes_through (Action.behaviour h.recorded) (recorded_live live)
    (fun _ _ a _ => remembers.recorded_uncancelled live uncancelled a) ran
  have settles : ∀ n, Settles n plan.commands result.outcomes calls (stateAt states n s)
      (stateAt states n s') := by
    intro n
    rcases built.turn n with ⟨silent, other⟩ |
      ⟨before, c, after, split, only, front, back, rfl | ⟨m, own, rfl⟩⟩
    · exact remembers.settles_silent ran silent other
    · exact remembers.settles_reset live uncancelled ran split only front back
    · exact remembers.settles_restart live uncancelled ran labels own split only front back
  refine ⟨unrecorded.symm, through, labels, settles, ?_⟩
  intro desired current ctx now s₀ s₁ planned same c hc kind
  have task := hc
  rw [(Planner.plan_ok planned).2.1] at task
  replace task := p.task_of_mem h.store desired current ctx now s₀ task
  have taken := (settles c.module).reset c hc rfl kind
  have positive : 0 < (h.store.told (Planner.keptNames desired current) s₀ c.module).count := by
    generalize name : c.module = n at task
    cases task with
    | handle _ _ _ other => exact absurd kind other
    | restart => cases kind
    | reset count => exact count
  have there := remembers.stored_of_told positive
  rw [stateAt, same] at there
  refine ⟨_, there, positive, ?_⟩
  rw [taken, stateAt, there]
  rfl

end Host.Remembers

/-! A sample: three attempts fail and are taken back, and all three count. -/

namespace Planner.Sample

/-- A runtime that restarts nothing. -/
def balking : Responder := fun d t r =>
  match r with
  | .restart name => (.error (.command (.failed "restart" name "no")), d.entry)
  | r => willing d t r

theorem balking_uncancelled (d : Dealings) (t : Token) (r : Request) (e : Error)
    (failed : (balking d t r).1 = .error e) : e.isCancelled = false := by
  cases r <;> cases failed
  rfl

/-- A host on which nothing is restarted. -/
def balky : Host ((String → Dealings) × States) := .ofResponders (fun _ => balking) later

/-- A cycle on it, in which the one module is to be restarted. -/
def balked : CycleResult × ((String → Dealings) × States) ×
    List (Moment ((String → Dealings) × States)) :=
  ({} : Runner).run balky.recorded.toSignals (Action.behaviour balky.recorded)
    ⟨anew⟩ ((fun _ => {}, ∅), [])

end Planner.Sample

open Planner.Sample in
theorem run_settles_sample :
    planner.Builds ⟨anew⟩ ∧ balked.1.cancelled = false ∧
      counted (stateAt Prod.snd "d" balked.2.1) = 3 ∧
      ∃ o stored, balked.1.outcomes.filter (·.module == "d") = [o] ∧ o.isSuccess = false ∧
        stateAt Prod.snd "d" balked.2.1 = some stored ∧
        stored.count.toNat = min (0 + o.verdict.attempts.toNat) 4294967295 := by
  have isolates : balky.Isolates _ _ _ _ := Host.isolates_ofResponders fun _ => balking_uncancelled
  have planned := planner.plan_eq memoryStore alone alone {} later ∅ (by decide)
  rw [Planner.Sample.blocks_alone _ _ rfl rfl] at planned
  have built : planner.Builds ⟨anew⟩ := .towards planned
  have ran : ({} : Runner).run balky.recorded.toSignals (Action.behaviour balky.recorded)
      ⟨anew⟩ ((fun _ => {}, ∅), []) = (balked.1, (balked.2.1, balked.2.2)) := by
    rw [balked]
  obtain ⟨-, through, -, settles, -⟩ := isolates.remembers.run_settles isolates.live
    (fun t r s e => balking_uncancelled (s.1 r.module) t r e) ran built
  obtain ⟨o, stored, only, -, there, restarted⟩ :=
    (settles "d").restarted _ List.mem_cons_self rfl rfl
  have failed : (balked.1.outcomes.filter (·.module == "d")).all (!·.isSuccess) = true := by
    decide +kernel
  rw [only, List.all_cons, Bool.and_eq_true] at failed
  exact ⟨built, through, by decide +kernel, o, stored, only, by simpa using failed.1, there,
    restarted.count⟩

end Steward
