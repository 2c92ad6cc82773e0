/-
# How long a restart count is kept

A plan takes back the count of a module only if the module is kept and was seen to have been running
for the time of intensive care, with a count above zero in the store (`Planner.reset_retained`). The
run that was observed decides: a restart recorded before it began is as long ago as that or longer,
but one recorded since then, say one that did not come about, does not begin intensive care anew
(`Planner.not_retained_since_restart`).

Times with a leap second among them do not add up, so a restart recorded just before the run began
may seem to be closer than the beginning of the run.

Key theorems: `StateStore.answered_of_told`, `RestartPolicy.run_of_pastIntensiveCare`,
`Planner.reset_retained`, `Planner.not_retained_since_restart`.
-/
import Steward.Proofs.Plan.Shape
import Steward.Proofs.Restart.Decision

namespace Steward

variable {σ : Type}

/-- A count above zero is told only of what the store answers. -/
theorem StateStore.answered_of_told (st : StateStore σ) {n : String} :
    ∀ {ks : List String} {s : σ}, 0 < (st.told ks s n).count →
      ∃ t, (st.get n t).1 = .ok (some (st.told ks s n))
  | [], _, positive => absurd positive (show ¬ (0 : UInt32) < 0 by decide)
  | k :: ks, s, positive => by
    rw [told] at positive ⊢
    by_cases same : n = k
    · rw [if_pos same] at positive ⊢
      subst same
      unfold history at positive ⊢
      split at positive
      · rename_i answer
        exact ⟨s, congrArg Prod.fst answer⟩
      · exact absurd positive (show ¬ (0 : UInt32) < 0 by decide)
      · exact absurd positive (show ¬ (0 : UInt32) < 0 by decide)
    · rw [if_neg same] at positive ⊢
      exact answered_of_told st positive

/-- A module past intensive care was seen to have been running for that time. -/
theorem RestartPolicy.run_of_pastIntensiveCare {p : RestartPolicy} {m : Module} {now : Instant}
    (past : p.pastIntensiveCare m now = true) :
    ∃ o start, m.observed = some o ∧ o.status = .running ∧ o.startedAt = some start ∧
      (p.intensiveCare.toNanos : Int) ≤ now.minus start := by
  obtain ⟨o, start, d, seen, run, started, span, long⟩ := p.pastIntensiveCare_iff.1 past
  exact ⟨o, start, seen, run, started, Int.le_trans (Int.ofNat_le.2 long)
    (Instant.toNanos_since span)⟩

namespace Planner

variable {p : Planner} {st : StateStore σ} {desired current : ModuleSet} {ctx : PlanContext}
  {now : Instant} {s s' : σ} {plan : Plan Action}

/-- **A count is kept throughout intensive care.** A command of a plan takes a count back only if it
does nothing else, for a module that is desired as it is, that was seen to have been running for the
time of intensive care, and of which the store tells a count above zero. Leap seconds apart, the
last restart that the store tells of is as long ago, unless it was recorded since the module began
to run. -/
theorem reset_retained (planned : p.plan st desired current ctx now s = (.ok plan, s'))
    {c : Command Action} (hc : c ∈ plan.commands)
    (resets : c.kind = .resetRestarts ∨ ∃ n, .resetRestarts n ∈ c.leaves) :
    ∃ m o start told, c = .leaf (.resetRestarts m.name) ∧
      desired.fate current m.name = .kept m ∧ m.observed = some o ∧ o.status = .running ∧
      o.startedAt = some start ∧ (p.policy.intensiveCare.toNanos : Int) ≤ now.minus start ∧
      told = st.told (keptNames desired current) s m.name ∧
      (∃ t, (st.get m.name t).1 = .ok (some told)) ∧ 0 < told.count ∧
      (now.inLeap = false → start.inLeap = false → told.last.inLeap = false →
        told.last.notAfter start →
        (p.policy.intensiveCare.toNanos : Int) ≤ now.minus told.last) := by
  rw [(plan_ok planned).2.1] at hc
  have kind : c.kind = .resetRestarts := by
    rcases resets with kind | ⟨n, ha⟩
    · exact kind
    · rw [((p.task_of_mem st desired current ctx now s hc).reset_of_mem p now ha).1]
      rfl
  obtain ⟨m, kept, due⟩ := p.due_of_kind st desired current ctx now s hc (.inr kind)
  rw [due.module_eq] at kept due
  cases due with
  | restart => cases kind
  | stop => simp at kind
  | reset _ count past =>
    obtain ⟨o, start, seen, run, started, long⟩ := RestartPolicy.run_of_pastIntensiveCare past
    refine ⟨m, o, start, _, rfl, kept, seen, run, started, long, rfl, st.answered_of_told count,
      count, fun present begun last earlier => ?_⟩
    -- the time before the run comes on top of the run
    have before := Instant.minus_nonneg last begun earlier
    have whole := Instant.minus_add_minus last begun present
    omega

/-! Samples of a module that runs again, of which two restarts are known. -/

namespace Sample

/-- A module that was seen to run since some instant. -/
def healed (start : Instant) : Module :=
  { running "d" "d:1" with observed := some { status := .running, startedAt := some start } }

/-- It is there, and desired as it is. -/
def recovered (start : Instant) : ModuleSet := .insert .empty (healed start)

/-- What is known of its restarts. -/
def restarted (last : Instant) : States := NameMap.insert ∅ "d" ⟨2, last⟩

theorem plan_recovered {start last now : Instant}
    (valid : planner.validate (recovered start) {} = .ok ())
    (past : planner.policy.pastIntensiveCare (healed start) now = true) :
    planner.plan memoryStore (recovered start) (recovered start) {} now (restarted last) =
      (.ok ⟨[.leaf (.resetRestarts "d")]⟩, restarted last) := by
  have unchanged : changes (recovered start) ((recovered start).diff (recovered start)) = {} := rfl
  have kept : settled (recovered start) (recovered start)
      ((recovered start).diff (recovered start)) = [healed start] := rfl
  have history : memoryStore.history (healed start).name (restarted last) =
      (⟨2, last⟩, restarted last) := rfl
  have alone : planner.policy.decision (healed start) ⟨2, last⟩ now = .none :=
    planner.policy.decision_of_running rfl rfl (show Status.running ≠ .stopped by decide)
  have asked : planner.policyCommand (healed start) ⟨2, last⟩ now =
      some (.leaf (.resetRestarts "d")) := by
    rw [policyCommand, alone]
    exact if_pos ⟨show (0 : UInt32) < 2 by decide, past⟩
  rw [plan_eq _ _ _ _ _ _ _ valid, blocks, unchanged, kept]
  simp only [policyCommands, history, asked, byName, List.mergeSort_nil, List.map_nil,
    List.nil_append]
  rfl

end Sample

open Sample in
/-- A count is taken back although the last restart was recorded five minutes ago, for the module
was seen to have been running for an hour; and across a leap second, although the restart was
recorded half a second before the run began. -/
theorem not_retained_since_restart :
    (∃ plan, planner.plan memoryStore (recovered ⟨0, 0⟩) (recovered ⟨0, 0⟩) {} ⟨3600, 0⟩
        (restarted ⟨3300, 0⟩) = (.ok plan, restarted ⟨3300, 0⟩) ∧
      .leaf (.resetRestarts "d") ∈ plan.commands ∧
      (restarted ⟨3300, 0⟩).get? "d" = some ⟨2, ⟨3300, 0⟩⟩ ∧
      Instant.minus ⟨3600, 0⟩ ⟨3300, 0⟩ < planner.policy.intensiveCare.toNanos) ∧
    ∃ plan, planner.plan memoryStore (recovered ⟨86400, 0⟩) (recovered ⟨86400, 0⟩) {}
        ⟨86999, 1000000000⟩ (restarted ⟨86399, 500000000⟩) =
          (.ok plan, restarted ⟨86399, 500000000⟩) ∧
      .leaf (.resetRestarts "d") ∈ plan.commands ∧
      (restarted ⟨86399, 500000000⟩).get? "d" = some ⟨2, ⟨86399, 500000000⟩⟩ ∧
      Instant.minus ⟨86999, 1000000000⟩ ⟨86399, 500000000⟩ <
        planner.policy.intensiveCare.toNanos :=
  ⟨⟨_, plan_recovered (by decide) (by decide), List.mem_cons_self, rfl, by decide⟩,
    _, plan_recovered (by decide) (by decide), List.mem_cons_self, rfl, by decide⟩

open Sample in
theorem reset_retained_sample :
    ∃ plan, planner.plan memoryStore (recovered ⟨3600, 0⟩) (recovered ⟨3600, 0⟩) {} ⟨7200, 0⟩
        (restarted ⟨0, 0⟩) = (.ok plan, restarted ⟨0, 0⟩) ∧
      ∃ c ∈ plan.commands, c.kind = .resetRestarts ∧
        (planner.policy.intensiveCare.toNanos : Int) ≤ Instant.minus ⟨7200, 0⟩ ⟨3600, 0⟩ ∧
        (planner.policy.intensiveCare.toNanos : Int) ≤ Instant.minus ⟨7200, 0⟩ ⟨0, 0⟩ := by
  have planned := @plan_recovered ⟨3600, 0⟩ ⟨0, 0⟩ ⟨7200, 0⟩ (by decide) (by decide)
  have fate : (recovered ⟨3600, 0⟩).fate (recovered ⟨3600, 0⟩) "d" =
      .kept (healed ⟨3600, 0⟩) := rfl
  have known : memoryStore.told (keptNames (recovered ⟨3600, 0⟩) (recovered ⟨3600, 0⟩))
      (restarted ⟨0, 0⟩) "d" = ⟨2, ⟨0, 0⟩⟩ := rfl
  obtain ⟨m, o, start, told, same, kept, seen, -, started, long, told_eq, -, -, whole⟩ :=
    reset_retained planned List.mem_cons_self (.inl rfl)
  have name : m.name = "d" := (Action.resetRestarts.inj (Command.leaf.inj same)).symm
  rw [name, fate] at kept
  cases kept
  cases seen
  cases started
  rw [told_eq, name, known] at whole
  exact ⟨_, planned, _, List.mem_cons_self, rfl, long, whole rfl rfl rfl (.inl (by decide))⟩

end Planner
end Steward
