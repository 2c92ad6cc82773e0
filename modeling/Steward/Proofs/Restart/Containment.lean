/-
# How far a crash loop can go

However often cycles are run, over whatever modules and against whatever runtime, a module that
keeps failing is restarted a bounded number of times until its count is taken back. With `M`
restarts allowed and `A` attempts for a command, at most `M` runs record a restart, the runtime is
asked for `M + A - 1` restarts at most, and the count never passes that number. A restart is planned
only with a count below `M`, and not before the backoff window after the last record of a restart is
over, even if the count was taken back since (`Cycles.restarts_contained`).

A plan restarts a module only with a count below `M`, so fewer than `M` records were made before the
run, and the run adds one for each attempt at most. All other commands are silent about the module,
but for a reset (`Planner.commandsFor_cases`).

Key definitions: `Cycles`.
Key theorems: `Planner.commandsFor_cases`, `Host.Remembers.contained_cycle`,
`Cycles.contained_so_far`, `Cycles.restarts_contained`.
-/
import Steward.Proofs.Device.Steady
import Steward.Proofs.Restart.Decision
import Steward.Proofs.Restart.Tally

namespace Steward

variable {σ : Type}

/-! ### What is planned -/

/-- To handle a module without starting it anew does not count. -/
theorem Action.Handles.not_counts {n : String} {m : Module} {a : Action} (h : a.Handles m) :
    ¬ a.counts n := by
  cases h with
  | @host op other => cases op <;> first | exact id | exact absurd rfl other
  | @cluster op other => cases op <;> first | exact id | exact absurd rfl other

namespace Planner

variable (p : Planner) (st : StateStore σ) (desired current : ModuleSet) (ctx : PlanContext)
  (now : Instant) (s : σ)

/-- A module has no commands that count, or its count is taken back, or it is restarted because the
policy says so. -/
theorem commandsFor_cases {n : String} (told : RestartState) :
    (∀ c ∈ p.commandsFor ctx now told (desired.fate current n),
      Silent n c ∨ c = .leaf (.resetRestarts n)) ∨
    ∃ m, desired.fate current n = .kept m ∧ m.name = n ∧ p.policy.decision m told now = .restart ∧
      p.commandsFor ctx now told (desired.fate current n) =
        [.group .restart n [.leaf (.recordRestart n), p.target.restart m]] := by
  have silent : ∀ {c : Command Action} {m : Module}, (∀ a ∈ c.leaves, a.Handles m) →
      ∀ c' ∈ [c], Silent n c' ∨ c' = .leaf (.resetRestarts n) := by
    intro c m handles c' hc
    obtain rfl := List.mem_singleton.1 hc
    exact .inl fun a ha => (handles a ha).not_counts
  cases hf : desired.fate current n with
  | absent => exact .inl fun c hc => absurd hc List.not_mem_nil
  | gone old => exact .inl (silent (p.target.handles_remove old))
  | added new => exact .inl (silent (p.target.handles_create new _ _))
  | adjusted old new => exact .inl (silent (p.target.handles_update new old))
  | replaced old new =>
    refine .inl fun c hc => ?_
    rcases List.mem_pair.1 hc with rfl | rfl
    · exact silent (p.target.handles_remove old) _ (List.mem_singleton_self _)
    · exact silent (p.target.handles_create new _ _) _ (List.mem_singleton_self _)
  | kept m =>
    obtain rfl := current.name_of_get? (ModuleSet.fate_eq_kept_iff.1 hf).1
    rw [commandsFor]
    cases asked : p.policyCommand m told now with
    | none => exact .inl fun c hc => absurd hc List.not_mem_nil
    | some c =>
      cases Due.iff_policyCommand.2 asked with
      | restart decided => exact .inr ⟨m, rfl, rfl, decided, rfl⟩
      | stop => exact .inl (silent (p.target.handles_stop m))
      | reset => exact .inl fun c hc => .inr (List.mem_singleton.1 hc)

/-- A restart is planned only if the policy decides on it. -/
theorem decision_of_restart {c : Command Action} (hc : c ∈ p.blocks st desired current ctx now s)
    (kind : c.kind = .restart) : ∃ m, desired.fate current c.module = .kept m ∧
      p.policy.decision m (st.told (keptNames desired current) s c.module) now = .restart := by
  obtain ⟨m, kept, due⟩ := p.due_of_kind st desired current ctx now s hc (.inl kind)
  refine ⟨m, kept, ?_⟩
  cases due with
  | restart decided => exact decided
  | stop => simp at kind
  | reset => cases kind

variable {p now} in
/-- A task is silent about every other module. -/
theorem Task.silent_of_ne {n name : String} {told : RestartState} {c : Command Action}
    (task : Task p now name told c) (other : name ≠ n) : Silent n c := by
  intro a ha counts
  have own := task.module_of_mem_leaves p now ha
  exact other (own.symm.trans (Action.module_of_counts counts))

/-- Of the commands of a plan those of other modules are silent. -/
theorem silent_of_other {n : String} {c : Command Action}
    (hc : c ∈ p.blocks st desired current ctx now s) (other : c.module ≠ n) : Silent n c :=
  (p.task_of_mem st desired current ctx now s hc).silent_of_ne other

end Planner

/-! ### Cycles -/

/-- The states that are reached from `s₀` by cycles, and what happened on the way. In a cycle a plan
is made for any modules at any time, and it is run; that its calls are recorded has no influence on
the run (`Host.run_recorded`). Between cycles anything may change but what is stored. -/
inductive Cycles (p : Planner) (r : Runner) (h : Host σ) (states : σ → States) (s₀ : σ) :
    List (Event σ) → σ → Prop
  | start : Cycles p r h states s₀ [] s₀
  | meanwhile {past : List (Event σ)} {s s' : σ} : Cycles p r h states s₀ past s →
    states s' = states s → Cycles p r h states s₀ past s'
  | cycle {past : List (Event σ)} {s s₁ s₂ : σ} {desired current : ModuleSet} {ctx : PlanContext}
    {now : Instant} {plan : Plan Action} {result : CycleResult} {record : List (Moment σ)} :
    Cycles p r h states s₀ past s → p.plan h.store desired current ctx now s = (.ok plan, s₁) →
    r.run h.recorded.toSignals (Action.behaviour h.recorded) plan (s₁, []) =
      (result, (s₂, record)) →
    Cycles p r h states s₀ (past ++ .began :: record.map .called) s₂

namespace Host.Remembers

variable {h : Host σ} {states : σ → States} (remembers : h.Remembers states) {n : String}
  {M A : Nat} {past : List (Event σ)} {p : Planner} {r : Runner} {desired current : ModuleSet}
  {ctx : PlanContext} {now : Instant} {s s₁ s₂ : σ} {plan : Plan Action}

include remembers

/-- A restart is planned for a module of which the policy knows what is stored. -/
theorem decision_of_planned
    (planned : p.plan h.store desired current ctx now s = (.ok plan, s₁)) {c : Command Action}
    (hc : c ∈ plan.commands) (kind : c.kind = .restart) :
    ∃ m, p.policy.decision m ((stateAt states c.module s).getD .never) now = .restart := by
  rw [(Planner.plan_ok planned).2.1] at hc
  obtain ⟨m, kept, decided⟩ := p.decision_of_restart h.store desired current ctx now s hc kind
  rw [remembers.told_eq ((Planner.mem_keptNames_iff desired current).2 ⟨m, kept⟩)] at decided
  exact ⟨m, decided⟩

/-- Silent commands and resets keep to the bounds. -/
theorem course_keeps {cs : List (Command Action)} {os : List Outcome}
    {v v' : Option RestartState × List (Moment σ)}
    (small : ∀ c ∈ cs, Silent n c ∨ c = .leaf (.resetRestarts n))
    (course : Course (r.Does (Action.behaviour h.recorded) (watched states n)) cs os v v')
    (start : Contained states n M A (past ++ v.2.map .called) v.1) :
    Contained states n M A (past ++ v'.2.map .called) v'.1 := by
  refine course.invariant (P := fun v => Contained states n M A (past ++ v.2.map .called) v.1)
    (fun c hc ok v v' does contained => ?_) start
  rcases small c hc with silent | rfl
  · exact (remembers.does_nothing silent contained does).1
  · exact remembers.does_counts_reset contained does

theorem course_silent {cs : List (Command Action)} {os : List Outcome}
    {v v' : Option RestartState × List (Moment σ)} (silent : ∀ c ∈ cs, Silent n c)
    (course : Course (r.Does (Action.behaviour h.recorded) (watched states n)) cs os v v')
    (start : Contained states n M A (past ++ v.2.map .called) v.1) :
    Contained states n M A (past ++ v'.2.map .called) v'.1 ∧
      tallied n past v'.2 = tallied n past v.2 := by
  refine course.invariant (P := fun w => Contained states n M A (past ++ w.2.map .called) w.1 ∧
    tallied n past w.2 = tallied n past v.2) (fun c hc ok w w' does so_far => ?_) ⟨start, rfl⟩
  exact (remembers.does_nothing (silent c hc) so_far.1 does).imp_right (Eq.trans · so_far.2)

/-- A course in which the module is restarted once, with a count below the maximum. -/
theorem course_restart {cs : List (Command Action)} {os : List Outcome}
    {v v' : Option RestartState × List (Moment σ)} (few : r.attempts.toNat ≤ A) {t : Target}
    {m : Module} (own : m.name = n)
    (only : cs.filter (·.module == n) =
      [.group .restart n [.leaf (.recordRestart n), t.restart m]])
    (silent : ∀ c ∈ cs, c.module ≠ n → Silent n c)
    (course : Course (r.Does (Action.behaviour h.recorded) (watched states n)) cs os v v')
    (start : Contained states n M A (past ++ v.2.map .called) v.1)
    (below : (tallied n past v.2).records < M) :
    Contained states n M A (past ++ v'.2.map .called) v'.1 := by
  obtain ⟨before, after, rfl, others, -, later⟩ := List.filter_eq_cons_iff.1 only
  have others' := List.filter_eq_nil_iff.1 later
  have silent₁ : ∀ c ∈ before, Silent n c := fun c hc =>
    silent c (List.mem_append_left _ hc) (by simpa using others c hc)
  have silent₂ : ∀ c ∈ after, Silent n c := fun c hc =>
    silent c (List.mem_append_right _ (List.mem_cons_of_mem _ hc)) (by simpa using others' c hc)
  obtain ⟨os₁, os₂, v₁, course₁, course₂⟩ := course.append
  obtain ⟨contained₁, same⟩ := remembers.course_silent silent₁ course₁ start
  cases course₂ with
  | stop => exact contained₁
  | next _ does course₃ =>
    have contained₂ := remembers.does_restart_group own few (same ▸ below) contained₁ does
    exact (remembers.course_silent silent₂ course₃ contained₂).1

/-- A cycle keeps to the bounds. -/
theorem contained_cycle {result : CycleResult} {record : List (Moment σ)}
    (few : r.attempts.toNat ≤ A) (allowed : p.policy.maxRestarts.toNat = M)
    (before : Contained states n M A past (stateAt states n s))
    (planned : p.plan h.store desired current ctx now s = (.ok plan, s₁))
    (ran : r.run h.recorded.toSignals (Action.behaviour h.recorded) plan (s₁, []) =
      (result, (s₂, record))) :
    Contained states n M A (past ++ .began :: record.map .called) (stateAt states n s₂) := by
  obtain ⟨-, blocks, rfl⟩ := Planner.plan_ok planned
  have course := r.run_course (Action.behaviour h.recorded) (remembers.watched_keeps n) ran
  have began : Contained states n M A ((past ++ [.began]) ++ List.map .called [])
      (stateAt states n s) := by
    rw [List.map_nil, List.append_nil]
    exact before.snoc before.sound.note_began fun m hm => nomatch hm
  have unmoved : watched states n
        ((p.policyCommands h.store now
          (Planner.settled desired current (desired.diff current)) s).2, ([] : List (Moment σ))) =
      (stateAt states n s, []) := by
    rw [watched, stateAt, remembers.policyCommands_keeps]
  have others : ∀ c ∈ plan.commands, c.module ≠ n → Silent n c := fun c hc =>
    p.silent_of_other h.store desired current ctx now s (blocks ▸ hc)
  have own := p.filter_commands h.store desired current ctx now s n
  rw [← blocks] at own
  rw [unmoved] at course
  rw [← List.singleton_append, ← List.append_assoc]
  rcases p.commandsFor_cases desired current ctx now (n := n)
    (h.store.told (Planner.keptNames desired current) s n) with
    small | ⟨m, kept, name, decided, only⟩
  · refine remembers.course_keeps (fun c hc => ?_) course began
    by_cases same : c.module = n
    · exact small c (own ▸ List.mem_filter.2 ⟨hc, by simpa using same⟩)
    · exact .inl (others c hc same)
  · rw [remembers.told_eq ((Planner.mem_keptNames_iff desired current).2 ⟨m, kept⟩)] at decided
    have below : counted (stateAt states n s) < p.policy.maxRestarts :=
      (p.policy.restart_of_decision decided).2.1
    -- with a count below the maximum, the count is the number of records
    have records : (tally n past).records < M := by
      have count := before.sound.count
      have bound := p.policy.maxRestarts.toNat_lt
      rw [UInt32.lt_iff_toNat_lt] at below
      omega
    refine remembers.course_restart few name (own.trans only) others course began ?_
    rw [tallied, List.map_nil, List.append_nil, tally_snoc]
    exact records

end Host.Remembers

namespace Cycles

variable {p : Planner} {r : Runner} {h : Host σ} {states : σ → States} {n : String} {s₀ s : σ}
  {past : List (Event σ)}

/-- What is stored and what was called fit together in every state that is reached. -/
theorem contained_so_far (remembers : h.Remembers states)
    (fresh : counted (stateAt states n s₀) = 0) (reached : Cycles p r h states s₀ past s) :
    Contained states n p.policy.maxRestarts.toNat (max 1 r.limit.toNat) past
      (stateAt states n s) := by
  induction reached with
  | start =>
    have sound : Sound p.policy.maxRestarts.toNat (max 1 r.limit.toNat) {} (stateAt states n s₀) :=
      ⟨by rw [fresh]; rfl, fun _ none => (nomatch none), Nat.le_refl 0, Nat.le_refl 0,
        Nat.zero_le _, Nat.zero_le _⟩
    refine ⟨sound, fun early before => ?_, fun m hm => nomatch hm⟩
    rw [List.prefix_nil.1 before]
    exact ⟨Nat.zero_le _, Nat.zero_le _⟩
  | meanwhile _ same ih => rwa [stateAt, same]
  | cycle _ planned ran ih =>
    exact remembers.contained_cycle (Nat.le_of_eq r.attempts_eq) rfl ih planned ran

/-- **A crash loop is contained.** Let the count of a module be zero at first. In every state that
is reached by cycles, and right after every call on the way, the count is `M + A - 1` at most. At
every moment at most `M` runs had recorded a restart since the count was last taken back, and the
runtime had been asked for a restart at most `M + A - 1` times. A restart is planned only if `M` is
not zero and the count is below it, and not before the backoff window since the last record of a
restart is over, whether or not the count was taken back in between. -/
theorem restarts_contained (remembers : h.Remembers states)
    (fresh : counted (stateAt states n s₀) = 0) (reached : Cycles p r h states s₀ past s) :
    (counted (stateAt states n s)).toNat ≤ p.policy.maxRestarts.toNat + max 1 r.limit.toNat - 1 ∧
    (∀ m, .called m ∈ past → (counted (stateAt states n m.after)).toNat ≤
      p.policy.maxRestarts.toNat + max 1 r.limit.toNat - 1) ∧
    (∀ early, early <+: past → (tally n early).runs ≤ p.policy.maxRestarts.toNat ∧
      (tally n early).restarts ≤ p.policy.maxRestarts.toNat + max 1 r.limit.toNat - 1) ∧
    ∀ desired current ctx now plan s₁,
      p.plan h.store desired current ctx now s = (.ok plan, s₁) →
      ∀ c ∈ plan.commands, c.module = n → c.kind = .restart →
        p.policy.maxRestarts ≠ 0 ∧ counted (stateAt states n s) < p.policy.maxRestarts ∧
        (p.policy.backoff.window (counted (stateAt states n s))).toNanos ≤
          (RestartPolicy.elapsed ((stateAt states n s).getD .never) now).toNanos ∧
        ∀ last, (tally n past).last = some last → last.inLeap = false → now.inLeap = false →
          last.notAfter now →
          ((p.policy.backoff.window (counted (stateAt states n s))).toNanos : Int) ≤
            now.minus last := by
  have contained := contained_so_far remembers fresh reached
  refine ⟨contained.counted_le, contained.seen, contained.always, ?_⟩
  rintro desired current ctx now plan s₁ planned c hc rfl kind
  obtain ⟨m, decided⟩ := remembers.decision_of_planned planned hc kind
  obtain ⟨-, below, late⟩ := p.policy.restart_of_decision decided
  refine ⟨?_, below, late, fun last recorded before after order => ?_⟩
  · rintro none
    rw [none] at below
    exact UInt32.not_lt_zero below
  · obtain ⟨stored, there, rfl⟩ := contained.sound.last last recorded
    have span := RestartPolicy.elapsed_le (Instant.minus_nonneg before after order)
    rw [there] at late ⊢
    exact Int.le_trans (Int.ofNat_le.2 late) span

end Cycles

/-! A sample in which every attempt fails: three restarts are recorded in the first cycle, and then
the backoff window is eighty seconds. -/

namespace Planner.Sample

/-- Two minutes after the first cycle. -/
def again : Instant := ⟨3720, 0⟩

/-- What becomes of the first cycle. -/
def looped : CycleResult × Rehearsal × List (Moment Rehearsal) :=
  ({} : Runner).run (Rehearsal.steady later).recorded.toSignals
    (Action.behaviour (Rehearsal.steady later).recorded) ⟨anew⟩ (stuck, [])

/-- What happened in it. -/
def loop : List (Event Rehearsal) := .began :: looped.2.2.map .called

theorem reached_looped :
    Cycles planner {} (Rehearsal.steady later) Rehearsal.states stuck loop looped.2.1 := by
  have planned := planner.plan_eq (Rehearsal.steady later).store alone alone {} later stuck
    (by decide)
  have asked : (planner.policyCommands (Rehearsal.steady later).store later
      (settled alone alone (alone.diff alone)) stuck).2 = stuck := rfl
  rw [blocks_alone _ _ rfl rfl, asked] at planned
  have ran : ({} : Runner).run (Rehearsal.steady later).recorded.toSignals
      (Action.behaviour (Rehearsal.steady later).recorded) ⟨anew⟩ (stuck, []) =
        (looped.1, looped.2.1, looped.2.2) := by rw [looped]
  exact .cycle .start planned ran

end Planner.Sample

open Planner.Sample in
theorem restarts_contained_sample :
    Cycles planner {} (Rehearsal.steady later) Rehearsal.states stuck loop looped.2.1 ∧
      (tally "d" loop).records = 3 ∧ (tally "d" loop).last = some later ∧
      (tally "d" loop).restarts ≤ 7 ∧
      ∃ plan s₁, planner.plan (Rehearsal.steady later).store alone alone {} again looped.2.1 =
          (.ok plan, s₁) ∧ plan.commands = anew ∧
        (planner.policy.backoff.window 3).toNanos ≤ again.minus later := by
  obtain ⟨-, -, always, spaced⟩ :=
    Cycles.restarts_contained (n := "d") (Rehearsal.steady_remembers later) rfl reached_looped
  have history : ((Rehearsal.steady later).store.history "d" looped.2.1).1 = ⟨3, later⟩ := by
    decide +kernel
  have stored : counted (stateAt Rehearsal.states "d" looped.2.1) = 3 := by decide +kernel
  have last : (tally "d" loop).last = some later := by decide +kernel
  have restarts : (tally "d" loop).restarts ≤ 7 := (always loop (List.prefix_refl loop)).2
  have planned := planner.plan_eq (Rehearsal.steady later).store alone alone {} again looped.2.1
    (by decide)
  rw [blocks_alone _ _ history rfl] at planned
  have window := (spaced _ _ _ _ _ _ planned _ List.mem_cons_self rfl rfl).2.2.2 later last rfl rfl
    (.inl (by decide))
  rw [stored] at window
  exact ⟨reached_looped, by decide +kernel, last, restarts, _, _, planned, rfl, window⟩

end Steward
