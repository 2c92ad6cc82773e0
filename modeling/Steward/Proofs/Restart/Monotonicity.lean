/-
# Restart decisions are monotone

The decision for a module that is eligible for a restart hangs on its history and the time through
two numbers only: the count, and the time since the last restart. More restarts can turn a restart
into a wait and either into giving up, and so can less time since the last one, never the other way
round (`RestartPolicy.rank_le`): the backoff window does not shrink as the count grows
(`Backoff.window_mono`). As time passes the time since the last restart grows, and it is nothing as
long as that lies ahead, so a restart that is due stays due.

The rules form a chain in which each asks for a restart whenever the one before it does
(`RestartRule.applies_mono`), and the rule has no other say in the decision.

Key definitions: `Decision.rank`, `RestartRule.reach`.
Key theorems: `RestartRule.applies_mono`, `RestartPolicy.rank_le`,
`RestartPolicy.decision_monotone`.
-/
import Steward.Proofs.Restart.Backoff
import Steward.Proofs.Restart.Decision

namespace Steward

/-! ### The rules -/

/-- The place of a rule in the chain of those that ask for ever more restarts. -/
def RestartRule.reach : RestartRule → Nat
  | never => 0
  | onFailure => 1
  | onUnhealthy => 2
  | always => 3

/-- A module that failed was not seen to run. -/
theorem Observed.not_running_of_hasFailed {o : Observed} (failed : o.hasFailed = true) :
    o.status ≠ .running := by
  intro run
  simp [hasFailed, run] at failed

/-- What a rule asks for, each later rule asks for as well. -/
theorem RestartRule.applies_mono {r r' : RestartRule} (h : r.reach ≤ r'.reach) {o : Observed}
    (applies : r.applies o = true) : r'.applies o = true := by
  have failure : onFailure.applies o = true → onUnhealthy.applies o = true := fun failed => by
    simpa [RestartRule.applies] using .inl failed
  have trouble : onUnhealthy.applies o = true → always.applies o = true := fun unhealthy => by
    simp only [RestartRule.applies, Bool.or_eq_true, beq_iff_eq] at unhealthy
    rcases unhealthy with failed | unknown
    · simpa [RestartRule.applies] using Observed.not_running_of_hasFailed failed
    · simp [RestartRule.applies, unknown]
  cases r with
  | never => cases applies
  | onFailure =>
    cases r' with
    | never => exact absurd h (by decide)
    | onFailure => exact applies
    | onUnhealthy => exact failure applies
    | always => exact trouble (failure applies)
  | onUnhealthy =>
    cases r' with
    | never | onFailure => exact absurd h (by decide)
    | onUnhealthy => exact applies
    | always => exact trouble applies
  | always =>
    cases r' with
    | never | onFailure | onUnhealthy => exact absurd h (by decide)
    | always => exact applies

/-! ### The decision -/

/-- How far a decision is from a restart, if the module is eligible for one. -/
def Decision.rank : Decision → Option Nat
  | restart => some 0
  | wait => some 1
  | giveUp => some 2
  | stop | none => Option.none

theorem Decision.restart_of_rank {d : Decision} {k : Nat} (h : d.rank = some k) (least : k ≤ 0) :
    d = .restart := by
  cases d with
  | restart => rfl
  | wait | giveUp =>
    cases h
    exact absurd least (by decide)
  | stop | none => cases h

namespace RestartPolicy

variable (p : RestartPolicy) {m : Module} {state state' : RestartState} {now now' : Instant}

/-- An eligible module is no closer to a restart with more restarts and less time since the last
one. -/
theorem rank_le (eligible : m.Eligible) (count : state.count ≤ state'.count)
    (sooner : (elapsed state' now').toNanos ≤ (elapsed state now).toNanos) :
    ∃ k k', (p.decision m state now).rank = some k ∧ (p.decision m state' now').rank = some k' ∧
      k ≤ k' := by
  have longer := p.backoff.window_mono count
  rw [p.decision_of_eligible eligible, p.decision_of_eligible eligible]
  by_cases many : p.maxRestarts ≤ state.count
  · rw [if_pos many, if_pos (UInt32.le_trans many count)]
    exact ⟨2, 2, rfl, rfl, by decide⟩
  · rw [if_neg many]
    by_cases many' : p.maxRestarts ≤ state'.count
    · rw [if_pos many']
      split
      · exact ⟨1, 2, rfl, rfl, by decide⟩
      · exact ⟨0, 2, rfl, rfl, by decide⟩
    · rw [if_neg many']
      by_cases early : (elapsed state now).shorter (p.backoff.window state.count) = true
      · -- what is too early for the smaller window is too early for the larger
        have early' : (elapsed state' now').shorter (p.backoff.window state'.count) = true := by
          rw [Duration.shorter_iff] at early ⊢
          omega
        rw [if_pos early, if_pos early']
        exact ⟨1, 1, rfl, rfl, by decide⟩
      · rw [if_neg early]
        split
        · exact ⟨0, 1, rfl, rfl, by decide⟩
        · exact ⟨0, 0, rfl, rfl, by decide⟩

/-- Less time has passed since a later instant, and at an earlier one. -/
theorem elapsed_mono (last : state.last.inLeap = false) (last' : state'.last.inLeap = false)
    (present : now.inLeap = false) (present' : now'.inLeap = false)
    (later : state.last.notAfter state'.last) (earlier : now'.notAfter now) :
    (elapsed state' now').toNanos ≤ (elapsed state now).toNanos := by
  have before := Instant.minus_nonneg last last' later
  have after := Instant.minus_nonneg present' present earlier
  have first := Instant.minus_add_minus last last' present'
  have whole := Instant.minus_add_minus last present' present
  rw [toNanos_elapsed, toNanos_elapsed]
  omega

/-- What is decided without regard to the time stays decided. -/
theorem decision_congr_now (now' : Instant)
    (h : p.decision m state now ∈ [Decision.stop, .giveUp, .none]) :
    p.decision m state now' = p.decision m state now := by
  by_cases eligible : m.Eligible
  · rw [p.decision_of_eligible eligible] at h ⊢
    rw [p.decision_of_eligible eligible]
    by_cases many : p.maxRestarts ≤ state.count
    · rw [if_pos many, if_pos many]
    · rw [if_neg many] at h
      split at h <;> simp at h
  · by_cases overruns : m.Overruns
    · rw [p.decision_of_overruns overruns, p.decision_of_overruns overruns]
    · rw [p.decision_of_neither overruns eligible, p.decision_of_neither overruns eligible]

/-- A rule that reaches further decides the same, unless this one leaves the module alone. -/
theorem decision_congr_rule {r r' : RestartRule} (reach : r.reach ≤ r'.reach)
    (h : p.decision { m with restartRule := r } state now ≠ .none) :
    p.decision { m with restartRule := r' } state now =
      p.decision { m with restartRule := r } state now := by
  by_cases eligible : ({ m with restartRule := r } : Module).Eligible
  · have further : ({ m with restartRule := r' } : Module).Eligible := by
      obtain ⟨running, o, seen, applies⟩ := eligible
      exact ⟨running, o, seen, r.applies_mono reach applies⟩
    rw [p.decision_of_eligible eligible, p.decision_of_eligible further]
  · by_cases overruns : ({ m with restartRule := r } : Module).Overruns
    · have still : ({ m with restartRule := r' } : Module).Overruns := overruns
      rw [p.decision_of_overruns overruns, p.decision_of_overruns still]
    · exact absurd (p.decision_of_neither overruns eligible) h

/-- **Restart decisions are monotone.** Leap seconds apart, a restart that is due stays due as time
passes; to stop, to give up and to leave alone do not depend on the time at all. More restarts, or a
later last one, bring an eligible module no closer to a restart, and change nothing for one that is
stopped or left alone. Of two rules the one that reaches further gives the same decision as the
other, unless that leaves the module alone. -/
theorem decision_monotone (p : RestartPolicy) (m : Module) :
    (∀ state now now', state.last.inLeap = false → now.inLeap = false → now'.inLeap = false →
      now.notAfter now' → p.decision m state now = .restart →
      p.decision m state now' = .restart) ∧
    (∀ state now now', p.decision m state now ∈ [Decision.stop, .giveUp, .none] →
      p.decision m state now' = p.decision m state now) ∧
    (∀ state state' now, state.last.inLeap = false → state'.last.inLeap = false →
      now.inLeap = false → state.count ≤ state'.count → state.last.notAfter state'.last →
      (m.Eligible → ∃ k k', (p.decision m state now).rank = some k ∧
        (p.decision m state' now).rank = some k' ∧ k ≤ k') ∧
      (p.decision m state now ∈ [Decision.stop, .none] →
        p.decision m state' now = p.decision m state now)) ∧
    ∀ r r' state now, r.reach ≤ r'.reach →
      p.decision { m with restartRule := r } state now ≠ .none →
      p.decision { m with restartRule := r' } state now =
        p.decision { m with restartRule := r } state now := by
  refine ⟨?_, fun state now now' => p.decision_congr_now now', ?_,
    fun r r' state now => p.decision_congr_rule⟩
  · intro state now now' last present present' earlier due
    have eligible := p.eligible_of_restart due
    have sooner := elapsed_mono last last present' present (.inr ⟨rfl, Nat.le_refl _⟩) earlier
    obtain ⟨k, k', later, first, le⟩ := p.rank_le eligible (UInt32.le_refl state.count) sooner
    rw [due] at first
    cases first
    exact Decision.restart_of_rank later le
  · intro state state' now last last' present count later
    have sooner := elapsed_mono last last' present present later (.inr ⟨rfl, Nat.le_refl _⟩)
    refine ⟨fun eligible => p.rank_le eligible count sooner, fun h => ?_⟩
    simp only [List.mem_cons, List.not_mem_nil, or_false] at h
    rcases h with stop | none
    · rw [stop, p.stop_iff]
      exact p.stop_iff.1 stop
    · rw [none, p.none_iff]
      exact p.none_iff.1 none

/-! A module that failed, with some times since its last restart. -/

namespace Sample

/-- A module that was seen to have failed. -/
def down : Module :=
  { name := "d", version := "1", type := "docker", observed := some { status := .failed } }

end Sample

open Sample in
theorem decision_monotone_sample :
    decision {} down ⟨1, ⟨0, 0⟩⟩ ⟨60, 0⟩ = .restart ∧
      decision {} down ⟨5, ⟨0, 0⟩⟩ ⟨60, 0⟩ = decision {} down ⟨5, ⟨0, 0⟩⟩ ⟨30, 0⟩ ∧
      (∃ k k', (decision {} down ⟨1, ⟨0, 0⟩⟩ ⟨30, 0⟩).rank = some k ∧
        (decision {} down ⟨2, ⟨10, 0⟩⟩ ⟨30, 0⟩).rank = some k' ∧ k ≤ k') ∧
      decision {} { down with restartRule := .always } ⟨1, ⟨0, 0⟩⟩ ⟨30, 0⟩ =
        decision {} { down with restartRule := .onFailure } ⟨1, ⟨0, 0⟩⟩ ⟨30, 0⟩ := by
  obtain ⟨later, fixed, history, rules⟩ := decision_monotone {} down
  have eligible : down.Eligible := ⟨rfl, _, rfl, rfl⟩
  exact ⟨later ⟨1, ⟨0, 0⟩⟩ ⟨30, 0⟩ ⟨60, 0⟩ rfl rfl rfl (.inl (by decide)) (by decide),
    fixed ⟨5, ⟨0, 0⟩⟩ ⟨30, 0⟩ ⟨60, 0⟩ (by decide),
    (history ⟨1, ⟨0, 0⟩⟩ ⟨2, ⟨10, 0⟩⟩ ⟨30, 0⟩ rfl rfl rfl (by decide) (.inl (by decide))).1
      eligible,
    rules .onFailure .always ⟨1, ⟨0, 0⟩⟩ ⟨30, 0⟩ (by decide) (by decide)⟩

end RestartPolicy
end Steward
