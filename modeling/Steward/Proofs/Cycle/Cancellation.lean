/-
# Nothing new is begun after a cancellation

Once the cycle is cancelled, no command and no delay makes another call, whatever the runtime and
the store do and at whatever moment the cancellation comes (`Host.Latches.nothing_new`). The only
calls that may still be made are those by which the group that was being executed takes back the
leaves that were done, from the last to the first, with the fresh token that nobody cancels.

A step of a run proceeds in this way: it adds nothing to the log if the cycle is cancelled before
it, and what it adds winds up, in calls that are in time and then at most the taking back of one
group (`Host.Proceeds`). As long as the cycle is not cancelled all calls are in time, and after that
nothing is added; so the relation passes through attempts and through the commands of a plan.

Planned commands are leaves and groups of leaves, so to take back a group is to take back its leaves
(`Planner.Builds.flat`).

Key definitions: `Command.Flat`, `Planner.Builds`, `Host.Latches`, `WindsUp`, `Host.Proceeds`.
Key theorems: `Planner.Builds.flat`, `Host.Latches.execute_proceeds`,
`Host.Latches.runAll_proceeds`, `Host.Latches.nothing_new`.
-/
import Steward.Proofs.Cycle.Convergence
import Steward.Proofs.Cycle.Log
import Steward.Proofs.Cycle.Outcomes

namespace Steward

variable {α σ : Type}

/-! ### Planned commands are flat -/

namespace Command

/-- A leaf, or a group of leaves. -/
def Flat : Command α → Prop
  | leaf _ => True
  | group _ _ cs => ∃ as : List α, cs = as.map leaf

theorem leavesOf_map_leaf (as : List α) : leavesOf (as.map leaf) = as := by
  induction as with
  | nil => rfl
  | cons a as ih => exact congrArg (a :: ·) ih

/-- A flat command does its leaves one after another. -/
theorem Flat.execute_eq {c : Command α} (flat : c.Flat) (b : Behaviour α σ) (t : Token) (s : σ) :
    c.execute b t s = executeAll b t (c.leaves.map leaf) s := by
  cases c with
  | leaf a =>
    simp only [execute, leaves, List.map_cons, List.map_nil, executeAll]
    split <;> rename_i e <;> rw [e]
  | group k m cs =>
    obtain ⟨as, rfl⟩ := flat
    rw [execute, leaves, leavesOf_map_leaf]

end Command

namespace Target

theorem flat_create (t : Target) (m : Module) (runtime : RuntimeInfo) (identity : Option Identity) :
    (t.create m runtime identity).Flat := by
  unfold create
  split
  · split
    · exact ⟨[_, _, _], rfl⟩
    · exact ⟨[_, _], rfl⟩
  · trivial

theorem flat_update (t : Target) (old new : Module) : (t.update old new).Flat := by
  unfold update
  split
  · split
    · exact ⟨[_, _], rfl⟩
    · exact ⟨[_, _], rfl⟩
    · exact ⟨[_], rfl⟩
  · split
    · exact ⟨[_], rfl⟩
    · exact ⟨[_], rfl⟩
    · exact ⟨[], rfl⟩

theorem flat_remove (t : Target) (m : Module) : (t.remove m).Flat := by
  unfold remove
  split <;> trivial

theorem flat_stop (t : Target) (m : Module) : (t.stop m).Flat := by
  unfold stop
  split <;> trivial

end Target

namespace Planner

variable (p : Planner)

/-- The plans that a planner makes: to move the modules that are there towards the desired ones, and
to stop every module. -/
inductive Builds : Plan Action → Prop
  | towards {κ : Type} {st : StateStore κ} {desired current : ModuleSet} {ctx : PlanContext}
    {now : Instant} {s s' : κ} {plan : Plan Action} :
    p.plan st desired current ctx now s = (.ok plan, s') → Builds plan
  | shutdown (current : ModuleSet) : Builds (p.shutdownPlan current)

variable {p}

theorem flat_of_due {now : Instant} {m : Module} {told : RestartState} {c : Command Action}
    (due : Due p now m told c) : c.Flat := by
  cases due with
  | restart =>
    obtain ⟨a, e⟩ := p.target.restart_eq_leaf m
    exact ⟨[.recordRestart m.name, a], by rw [e]; rfl⟩
  | stop => exact p.target.flat_stop m
  | reset => trivial

theorem flat_of_mem_blocks {st : StateStore σ} {desired current : ModuleSet} {ctx : PlanContext}
    {now : Instant} {s : σ} {c : Command Action} (hc : c ∈ p.blocks st desired current ctx now s) :
    c.Flat := by
  simp only [blocks, List.mem_append, List.mem_map] at hc
  rcases hc with ((⟨m, -, rfl⟩ | ⟨⟨old, new⟩, -, rfl⟩) | ⟨m, -, rfl⟩) | hc
  · exact p.target.flat_remove m
  · exact p.target.flat_update old new
  · exact p.target.flat_create m _ _
  · obtain ⟨m, -, due⟩ := ((p.upkeep_block st desired current now s).mem_iff c).1 hc
    exact flat_of_due due

/-- All commands of a plan are flat. -/
theorem Builds.flat {plan : Plan Action} (built : p.Builds plan) : ∀ c ∈ plan.commands, c.Flat := by
  intro c hc
  cases built with
  | towards planned =>
    rw [(plan_ok planned).2.1] at hc
    exact flat_of_mem_blocks hc
  | shutdown current =>
    obtain ⟨m, -, rfl⟩ := List.mem_map.1 hc
    exact p.target.flat_stop m

end Planner

/-! ### Steps on a host that stays cancelled -/

/-- A host on which nothing takes a cancellation back. -/
structure Host.Latches (h : Host σ) : Prop where
  pause : ∀ s, h.cancelled s = true → h.cancelled (h.pause s) = true
  wait : ∀ d s, h.cancelled s = true → h.cancelled (h.wait d s).2 = true
  request : ∀ t r s, h.cancelled s = true → h.cancelled (h.request t r s).2 = true
  update : ∀ k f s, h.cancelled s = true → h.cancelled (h.store.update k f s).2 = true
  putOrUpdate : ∀ k v f s, h.cancelled s = true →
    h.cancelled (h.store.putOrUpdate k v f s).2 = true

/-- Calls of which none is late, but for those that take back what was done of the leaves. -/
def WindsUp (as : List Action) (es : List Logged) : Prop :=
  ∃ before undone, es = before ++ undone ∧ (∀ e ∈ before, e.late = false) ∧
    (undone = [] ∨ ∃ past begun, before = past ++ begun ∧ BrokenOff as begun undone)

theorem WindsUp.of_punctual {as : List Action} {es : List Logged} (h : ∀ e ∈ es, e.late = false) :
    WindsUp as es :=
  ⟨es, [], (List.append_nil es).symm, h, .inl rfl⟩

theorem WindsUp.nil {as : List Action} : WindsUp as [] :=
  .of_punctual fun _ he => nomatch he

/-- Earlier calls that are in time do not matter. -/
theorem WindsUp.after {as : List Action} {past es : List Logged} (winds : WindsUp as es)
    (h : ∀ e ∈ past, e.late = false) : WindsUp as (past ++ es) := by
  obtain ⟨before, undone, rfl, punctual, ends⟩ := winds
  refine ⟨past ++ before, undone, (List.append_assoc ..).symm, ?_, ?_⟩
  · intro e he
    exact (List.mem_append.1 he).elim (h e) (punctual e)
  · refine ends.imp_right ?_
    rintro ⟨earlier, begun, rfl, broken⟩
    exact ⟨past ++ earlier, begun, (List.append_assoc ..).symm, broken⟩

namespace Host

/-- A cancellation stays, and if the cycle is not cancelled in the end, all that was added to the log
is in time. -/
structure Punctual (h : Host σ) (x x' : σ × List Logged) : Prop where
  stays : h.cancelled x.1 = true → h.cancelled x'.1 = true
  grows : ∃ es, x'.2 = x.2 ++ es ∧ (h.cancelled x'.1 = false → ∀ e ∈ es, e.late = false)

/-- What a step of a run does, in which the leaves may be taken back: it is punctual, adds nothing to
the log if the cycle is cancelled before, and what it adds winds up. -/
structure Proceeds (h : Host σ) (as : List Action) (x x' : σ × List Logged) : Prop where
  punctual : h.Punctual x x'
  silent : h.cancelled x.1 = true → x'.2 = x.2
  winds : ∃ es, x'.2 = x.2 ++ es ∧ WindsUp as es

variable {h : Host σ} {as as' : List Action} {x x₁ x₂ : σ × List Logged}

namespace Punctual

theorem of_silent (stays : h.cancelled x.1 = true → h.cancelled x₁.1 = true) (log : x₁.2 = x.2) :
    h.Punctual x x₁ :=
  ⟨stays, [], by rw [log, List.append_nil], fun _ _ he => nomatch he⟩

theorem trans (first : h.Punctual x x₁) (second : h.Punctual x₁ x₂) : h.Punctual x x₂ where
  stays cancelled := second.stays (first.stays cancelled)
  grows := by
    obtain ⟨es₁, log₁, punctual₁⟩ := first.grows
    obtain ⟨es₂, log₂, punctual₂⟩ := second.grows
    refine ⟨es₁ ++ es₂, by rw [log₂, log₁, List.append_assoc], fun live e he => ?_⟩
    have live₁ : h.cancelled x₁.1 = false := by
      by_contra cancelled
      have later := second.stays (by simpa using cancelled)
      rw [live] at later
      cases later
    exact (List.mem_append.1 he).elim (punctual₁ live₁ e) (punctual₂ live e)

instance : IsPreorder (σ × List Logged) h.Punctual where
  refl _ := .of_silent id rfl
  trans _ _ _ := .trans

/-- A call that is logged with whether it is late is punctual. -/
theorem tapped {α : Type} {contact : Contact} {step : Step σ α}
    (stays : ∀ s, h.cancelled s = true → h.cancelled (step s).2 = true) (x : σ × List Logged) :
    h.Punctual x (h.tapped contact step x).2 where
  stays := stays x.1
  grows := by
    refine ⟨_, rfl, fun live e he => ?_⟩
    rw [List.mem_singleton.1 he]
    by_contra late
    have later := stays x.1 (by simpa using late)
    have live : h.cancelled (step x.1).2 = false := live
    rw [live] at later
    cases later

end Punctual

namespace Proceeds

theorem of_silent (stays : h.cancelled x.1 = true → h.cancelled x₁.1 = true) (log : x₁.2 = x.2) :
    h.Proceeds as x x₁ where
  punctual := .of_silent stays log
  silent _ := log
  winds := ⟨[], by rw [log, List.append_nil], .nil⟩

/-- If the cycle is not cancelled after a step, nothing is taken back late. -/
theorem of_live (first : h.Proceeds as x x₁) (live : h.cancelled x₁.1 = false) :
    h.Proceeds as' x x₁ where
  punctual := first.punctual
  silent := first.silent
  winds := by
    obtain ⟨es, log, punctual⟩ := first.punctual.grows
    exact ⟨es, log, .of_punctual (punctual live)⟩

theorem trans (first : h.Proceeds as x x₁) (second : h.Proceeds as x₁ x₂) :
    h.Proceeds as x x₂ where
  punctual := first.punctual.trans second.punctual
  silent cancelled := (second.silent (first.punctual.stays cancelled)).trans (first.silent cancelled)
  winds := by
    by_cases cancelled : h.cancelled x₁.1 = true
    · -- the second step adds nothing
      obtain ⟨es, log, winds⟩ := first.winds
      exact ⟨es, (second.silent cancelled).trans log, winds⟩
    · -- all that the first step adds is in time
      have live : h.cancelled x₁.1 = false := by simpa using cancelled
      obtain ⟨es₁, log₁, punctual⟩ := first.punctual.grows
      obtain ⟨es₂, log₂, winds⟩ := second.winds
      exact ⟨es₁ ++ es₂, by rw [log₂, log₁, List.append_assoc], winds.after (punctual live)⟩

instance : IsPreorder (σ × List Logged) (h.Proceeds as) where
  refl _ := .of_silent id rfl
  trans _ _ _ := .trans

end Proceeds
end Host

/-- On a cancelled cycle no command is begun. -/
theorem Runner.runAll_of_cancelled [Labelled α] {g : Signals σ} {b : Behaviour α σ} (r : Runner)
    {s : σ} (cancelled : g.cancelled (g.pause s) = true) (cs : List (Command α)) :
    (r.runAll g b cs s).1.1 = [] := by
  cases cs with
  | nil => rfl
  | cons c cs =>
    have look : g.isCancelled .cycle s = (true, g.pause s) := by
      rw [Signals.isCancelled, cancelled]
      rfl
    rw [runAll, look]

/-! ### Attempts and runs -/

namespace Host.Latches

variable {h : Host σ} (latches : h.Latches)

include latches

theorem leaf_punctual (a : Action) : (Action.behaviour h.logged).Moves h.Punctual a := by
  refine Action.moves (fun x => ?_) (fun r _ t x => ?_) (fun name _ x => ?_) fun name _ x => ?_
  · exact .of_silent (latches.pause x.1) rfl
  · exact .tapped (latches.request t r) x
  · rw [Action.snd_record]
    exact .tapped (latches.putOrUpdate name _ _) x
  · rw [Action.snd_reset]
    exact .tapped (latches.update name _) x

/-- On a cancelled cycle the first leaf is refused, and nothing is called. -/
theorem executeAll_silent (as : List Action) (x : σ × List Logged)
    (cancelled : h.cancelled x.1 = true) :
    (Command.executeAll (Action.behaviour h.logged) .cycle (as.map .leaf) x).2.2 = x.2 := by
  cases as with
  | nil => rfl
  | cons a as =>
    obtain ⟨es, log, -, refused⟩ := a.execute_logs (h := h) x
    obtain ⟨failed, rfl⟩ := refused (latches.pause x.1 cancelled)
    rw [List.append_nil] at log
    simp only [List.map_cons, Command.executeAll, Command.execute, Action.behaviour]
    cases first : a.execute h.logged .cycle x with
    | mk answer x₁ =>
      rw [first] at failed log
      cases answer with
      | ok => cases failed
      | error => exact log

/-- An attempt at a flat command proceeds, and what it may take back are the command's leaves. -/
theorem execute_proceeds {c : Command Action} (flat : c.Flat) (x : σ × List Logged) :
    h.Proceeds c.leaves x (c.execute (Action.behaviour h.logged) .cycle x).2 where
  punctual := c.execute_moves (fun a _ => latches.leaf_punctual a) .cycle x
  silent := by
    rw [flat.execute_eq]
    exact latches.executeAll_silent c.leaves x
  winds := by
    rw [flat.execute_eq]
    obtain ⟨begun, undone, log, ends⟩ := Command.executeAll_logs (h := h) c.leaves x
    refine ⟨begun ++ undone, by rw [log, List.append_assoc], begun, undone, rfl, ?_⟩
    rcases ends with ⟨-, completed, rfl⟩ | ⟨-, broken⟩
    · exact ⟨BrokenOff.punctual_of_completed completed, .inl rfl⟩
    · exact ⟨broken.punctual, .inr ⟨[], begun, rfl, broken⟩⟩

/-- So do all attempts at it together. -/
theorem runCommand_proceeds (r : Runner) {c : Command Action} (flat : c.Flat)
    (x : σ × List Logged) :
    h.Proceeds c.leaves x (r.runCommand h.logged.toSignals (Action.behaviour h.logged) c x).2 :=
  Runner.attempt_keeps (latches.execute_proceeds flat)
    (fun d x => .of_silent (latches.wait d x.1) rfl) _ _ x

/-- A run proceeds, and what it may take back are the leaves of the last command that was begun. -/
theorem runAll_proceeds (r : Runner) : ∀ (cs : List (Command Action)), (∀ c ∈ cs, c.Flat) →
    ∀ x : σ × List Logged, ∃ as,
      h.Proceeds as x (r.runAll h.logged.toSignals (Action.behaviour h.logged) cs x).2 ∧
      (as = [] ∨ ∃ i c, cs[i]? = some c ∧ as = c.leaves ∧
        (r.runAll h.logged.toSignals (Action.behaviour h.logged) cs x).1.1.length = i + 1)
  | [], _, x => ⟨[], .of_silent id rfl, .inl rfl⟩
  | c :: cs, flat, x => by
    have looked : ∀ as, h.Proceeds as x (h.pause x.1, x.2) := fun as =>
      .of_silent (latches.pause x.1) rfl
    have look : h.logged.isCancelled .cycle x = (h.cancelled (h.pause x.1), (h.pause x.1, x.2)) :=
      rfl
    rw [Runner.runAll, look]
    cases h.cancelled (h.pause x.1) with
    | true => exact ⟨[], looked [], .inl rfl⟩
    | false =>
      have first := latches.runCommand_proceeds r (flat c List.mem_cons_self) (h.pause x.1, x.2)
      dsimp only
      cases ended : r.runCommand h.logged.toSignals (Action.behaviour h.logged) c
          (h.pause x.1, x.2) with
      | mk end₁ x₁ =>
        rw [ended] at first
        have begun : h.Proceeds c.leaves x x₁ := (looked _).trans first
        by_cases interrupted : end₁.2 = true
        · rw [if_pos interrupted]
          exact ⟨c.leaves, begun, .inr ⟨0, c, rfl, rfl, rfl⟩⟩
        · rw [if_neg interrupted]
          obtain ⟨as, later, last⟩ := runAll_proceeds r cs
            (fun c' hc' => flat c' (List.mem_cons_of_mem _ hc')) x₁
          by_cases cancelled : h.cancelled x₁.1 = true
          · -- this command was the last one
            have none := r.runAll_of_cancelled (g := h.logged.toSignals)
              (b := Action.behaviour h.logged) (s := x₁) (latches.pause x₁.1 cancelled) cs
            refine ⟨c.leaves, begun.trans ?_, .inr ⟨0, c, rfl, rfl, ?_⟩⟩
            · exact .of_silent later.punctual.stays (later.silent cancelled)
            · exact congrArg (List.length · + 1) none
          · have live : h.cancelled x₁.1 = false := by simpa using cancelled
            refine ⟨as, (begun.of_live live).trans later, last.imp_right ?_⟩
            rintro ⟨i, c', at_i, rfl, length⟩
            exact ⟨i + 1, c', at_i, rfl, congrArg (· + 1) length⟩

/-- **Nothing new after a cancellation.** Let a plan that a planner made be run, on a host that does
not take a cancellation back, with a log of the calls. All calls are made before the cycle is
cancelled, except that at the end leaves of one command may be taken back: those that were done in
the last attempt at the last command that has an outcome, from the last to the first, with the fresh
token, which is never cancelled. The outcomes are those of the first commands of the plan; of all
of them if the run was not cancelled, and if it was, one is missing or the last one is a failure. -/
theorem nothing_new {p : Planner} {plan : Plan Action} (built : p.Builds plan) {r : Runner}
    {s s' : σ} {log : List Logged} {result : CycleResult}
    (ran : r.run h.logged.toSignals (Action.behaviour h.logged) plan (s, []) =
      (result, (s', log))) :
    r.run h.toSignals (Action.behaviour h) plan s = (result, s') ∧
    (∃ before undone, log = before ++ undone ∧ (∀ e ∈ before, e.late = false) ∧
      (undone = [] ∨ ∃ i c past begun, plan.commands[i]? = some c ∧
        result.outcomes.length = i + 1 ∧ before = past ++ begun ∧
        BrokenOff c.leaves begun undone)) ∧
    (∀ s, (h.isCancelled .fresh s).1 = false) ∧
    result.outcomes.map Outcome.label = plan.labels.take result.outcomes.length ∧
    (result.cancelled = false → result.outcomes.length = plan.commands.length) ∧
    (result.cancelled = true → result.outcomes.length < plan.commands.length ∨
      ∃ o, result.outcomes.getLast? = some o ∧ o.isSuccess = false) := by
  have unlogged := h.run_logged r plan s []
  obtain ⟨as, proceeds, last⟩ := latches.runAll_proceeds r plan.commands built.flat (s, [])
  rw [ran] at unlogged
  refine ⟨unlogged.symm, ?_, fun _ => rfl, r.run_labels _ ran, r.length_run _ ran,
    r.cut_short_of_cancelled _ ran⟩
  have outcomes : (r.runAll h.logged.toSignals (Action.behaviour h.logged) plan.commands
      (s, [])).1.1 = result.outcomes := congrArg (·.1.outcomes) ran
  have ended : (r.runAll h.logged.toSignals (Action.behaviour h.logged) plan.commands
      (s, [])).2 = (s', log) := congrArg Prod.snd ran
  rw [outcomes] at last
  rw [ended] at proceeds
  obtain ⟨es, grown, before, undone, rfl, punctual, ends⟩ := proceeds.winds
  refine ⟨before, undone, grown, punctual, ends.imp_right ?_⟩
  rintro ⟨past, begun, rfl, broken⟩
  rcases last with rfl | ⟨i, c, at_i, rfl, length⟩
  · obtain ⟨done, failed, rest, -, -, none, -⟩ := broken
    simp at none
  · exact ⟨i, c, past, begun, at_i, length, rfl, broken⟩

end Host.Latches

namespace Rehearsal

theorem call_latches (text : String) {s : Rehearsal} (cancelled : s.cancelled = true) :
    (call text s).2.cancelled = true := by
  unfold call
  cases consult text s.rules with
  | mk found rules =>
    cases found with
    | none => exact cancelled
    | some rule =>
      dsimp only
      cases rule.error <;> simp [cancelled]

/-- A rehearsal does not take a cancellation back. -/
theorem steady_latches (now : Instant) : (steady now).Latches where
  pause _ cancelled := cancelled
  wait d s cancelled := by
    have cancelled : s.cancelled = true := cancelled
    simp [steady, Rehearsal.wait, cancelled]
  request t r s cancelled := by
    have kept := call_latches (requestText r) cancelled
    cases t with
    | cycle =>
      simp only [steady]
      split <;> rename_i e <;> rw [e] at kept <;> exact kept
    | fresh => exact cancelled
  update _ _ _ cancelled := cancelled
  putOrUpdate _ _ _ _ cancelled := cancelled

end Rehearsal

open Planner in
/-- The sample of a module that is to stop, cancelled while its status is set. What was set is taken
back, and the module is not stopped. -/
theorem nothing_new_sample :
    ∃ plan s₁ result s₂ log,
      Sample.planner.plan (Rehearsal.steady .epoch).store (Sample.turned .stopped) Sample.going {}
        .epoch { table := Sample.going.table
                 rules := [{ call := "status a stopped", cancel := true }] } = (.ok plan, s₁) ∧
      ({} : Runner).run (Rehearsal.steady .epoch).logged.toSignals
        (Action.behaviour (Rehearsal.steady .epoch).logged) plan (s₁, []) = (result, (s₂, log)) ∧
      log.map Logged.late = [false, true] ∧
      ∃ before undone, log = before ++ undone ∧ (∀ e ∈ before, e.late = false) ∧
        (undone = [] ∨ ∃ i c past begun, plan.commands[i]? = some c ∧
          result.outcomes.length = i + 1 ∧ before = past ++ begun ∧
          BrokenOff c.leaves begun undone) := by
  let start : Rehearsal :=
    { table := Sample.going.table, rules := [{ call := "status a stopped", cancel := true }] }
  have planned := Sample.planner.plan_eq (Rehearsal.steady .epoch).store (Sample.turned .stopped)
    Sample.going {} .epoch start (by decide)
  rw [Sample.blocks_turned _ _ _ (by decide)] at planned
  have ends := (Rehearsal.steady_latches .epoch).nothing_new (.towards planned) (r := {})
    (s := start) rfl
  exact ⟨_, _, _, _, _, planned, rfl, by decide, ends.2.1⟩

end Steward
