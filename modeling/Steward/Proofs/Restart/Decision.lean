/-
# What the restart policy decides

A module that runs although it is declared to be stopped is stopped (`Module.Overruns`); one that is
declared to run and of which its rule asks for a restart is restarted, as far as its history and the
backoff window allow (`Module.Eligible`); every other is left alone, whatever its history. So a
restart is decided only with a count below the maximum and outside the backoff window
(`RestartPolicy.restart_of_decision`).

The policy reckons with the time that lies between the last restart and now, or with the longest
span if that is shorter (`RestartPolicy.toNanos_elapsed`). Without leap seconds the times between
instants add up (`Instant.minus_add_minus`).

Key definitions: `Module.Overruns`, `Module.Eligible`, `Instant.notAfter`.
Key theorems: `RestartPolicy.decision_of_eligible`, `RestartPolicy.restart_of_decision`,
`RestartPolicy.decision_none_congr`, `RestartPolicy.pastIntensiveCare_iff`,
`RestartPolicy.toNanos_elapsed`.
-/
import Steward.Restart.Policy

namespace Steward

/-- No rule asks to restart what runs. -/
theorem RestartRule.applies_of_running (r : RestartRule) {o : Observed}
    (run : o.status = .running) : r.applies o = false := by
  cases r <;> simp [applies, Observed.hasFailed, run]

namespace Module

/-- The module is declared to be stopped and was seen to run. -/
def Overruns (m : Module) : Prop :=
  m.status = .stopped ∧ ∃ o, m.observed = some o ∧ o.status = .running

/-- The module is declared to run, and its rule asks to restart it after what was seen of it. -/
def Eligible (m : Module) : Prop :=
  m.status = .running ∧ ∃ o, m.observed = some o ∧ m.restartRule.applies o = true

end Module

namespace RestartPolicy

variable (p : RestartPolicy) {m : Module} {state : RestartState} {now : Instant}

/-! A module overruns, is eligible for a restart, or is left alone. Its history and the time have a
say only if it is eligible. -/

theorem decision_of_overruns (h : m.Overruns) : p.decision m state now = .stop := by
  obtain ⟨stopped, o, seen, run⟩ := h
  simp [decision, seen, stopped, run]

theorem decision_of_eligible (h : m.Eligible) : p.decision m state now =
    if p.maxRestarts ≤ state.count then .giveUp
    else if (elapsed state now).shorter (p.backoff.window state.count) then .wait
    else .restart := by
  obtain ⟨running, o, seen, applies⟩ := h
  simp [decision, seen, running, applies]

theorem decision_of_neither (h : ¬ m.Overruns) (h' : ¬ m.Eligible) :
    p.decision m state now = .none := by
  unfold decision
  split
  · rfl
  · rename_i o seen
    have alone : m.status ≠ .running ∨ m.restartRule.applies o = false := by
      by_cases running : m.status = .running
      · exact .inr (Bool.eq_false_iff.2 fun applies => h' ⟨running, o, seen, applies⟩)
      · exact .inl running
    rw [if_neg fun stop => h ⟨stop.1, o, seen, stop.2⟩, if_pos alone]

theorem stop_iff : p.decision m state now = .stop ↔ m.Overruns := by
  refine ⟨fun h => ?_, p.decision_of_overruns⟩
  by_cases overruns : m.Overruns
  · exact overruns
  · by_cases eligible : m.Eligible
    · rw [p.decision_of_eligible eligible] at h
      split at h
      · cases h
      · split at h <;> cases h
    · rw [p.decision_of_neither overruns eligible] at h
      cases h

theorem none_iff : p.decision m state now = .none ↔ ¬ m.Overruns ∧ ¬ m.Eligible := by
  refine ⟨fun h => ⟨fun overruns => ?_, fun eligible => ?_⟩, fun h =>
    p.decision_of_neither h.1 h.2⟩
  · rw [p.decision_of_overruns overruns] at h
    cases h
  · rw [p.decision_of_eligible eligible] at h
    split at h
    · cases h
    · split at h <;> cases h

theorem eligible_of_restart (h : p.decision m state now = .restart) : m.Eligible := by
  by_cases eligible : m.Eligible
  · exact eligible
  · by_cases overruns : m.Overruns
    · rw [p.decision_of_overruns overruns] at h
      cases h
    · rw [p.decision_of_neither overruns eligible] at h
      cases h

/-- What a restart is decided on. -/
theorem restart_of_decision (h : p.decision m state now = .restart) :
    m.status = .running ∧ state.count < p.maxRestarts ∧
      (p.backoff.window state.count).toNanos ≤ (elapsed state now).toNanos := by
  have eligible := p.eligible_of_restart h
  rw [p.decision_of_eligible eligible] at h
  split at h
  · cases h
  · rename_i below
    split at h
    · cases h
    · rename_i late
      rw [Duration.shorter_iff] at late
      exact ⟨eligible.1, UInt32.not_le.1 below, Nat.le_of_not_lt late⟩

theorem stopped_of_decision (h : p.decision m state now = .stop) : m.status = .stopped :=
  (p.stop_iff.1 h).1

/-- A module that is not to be stopped and is seen to run is left alone. -/
theorem decision_of_running {o : Observed} (seen : m.observed = some o) (run : o.status = .running)
    (status : m.status ≠ .stopped) : p.decision m state now = .none := by
  simp [decision, seen, status, m.restartRule.applies_of_running run]

/-- A module that is not to run and is not seen to run is left alone. -/
theorem decision_of_not_running {o : Observed} (seen : m.observed = some o)
    (still : o.status ≠ .running) (status : m.status ≠ .running) :
    p.decision m state now = .none := by
  simp [decision, seen, still, status]

/-- A module that is declared neither to run nor to be stopped is left alone. -/
theorem decision_of_unknown (status : m.status = .unknown) : p.decision m state now = .none := by
  unfold decision
  split
  · rfl
  · simp [status]

/-- A module that is left alone is left alone whatever its history. -/
theorem decision_none_congr (h : p.decision m state now = .none) (state' : RestartState) :
    p.decision m state' now = .none :=
  p.none_iff.2 (p.none_iff.1 h)

/-- A module is past intensive care if it is seen to run since long enough ago. -/
theorem pastIntensiveCare_iff : p.pastIntensiveCare m now = true ↔
    ∃ o start d, m.observed = some o ∧ o.status = .running ∧ o.startedAt = some start ∧
      now.since start = some d ∧ p.intensiveCare.toNanos ≤ d.toNanos := by
  unfold pastIntensiveCare
  cases m.observed with
  | none => simp
  | some o =>
    simp only [Bool.and_eq_true, beq_iff_eq, Option.any_eq_true, Option.bind_eq_some_iff,
      ← Bool.not_eq_true, Bool.not_eq_true', Duration.shorter_iff, Nat.not_lt, Option.some.injEq]
    constructor
    · rintro ⟨run, d, ⟨start, started, span⟩, long⟩
      exact ⟨o, start, d, rfl, run, started, span, long⟩
    · rintro ⟨_, start, d, rfl, run, started, span, long⟩
      exact ⟨run, d, ⟨start, started, span⟩, long⟩

end RestartPolicy

/-! ### Time -/

/-- A span that is made of nanoseconds is as long as they are, up to the longest span. -/
theorem Duration.toNanos_ofNanos (n : Nat) :
    (Duration.ofNanos n).toNanos = min n longest.toNanos := by
  have parts := Nat.div_add_mod n second
  have rest := Nat.mod_lt n (show second > 0 by decide)
  simp only [ofNanos, ofParts, Nat.zero_add]
  split
  · rename_i short
    have short : n / second < UInt64.size := short
    rw [toNanos_longest, toNanos]
    simp only [second, UInt64.size] at *
    omega
  · rename_i long
    have long : ¬ n / second < UInt64.size := long
    rw [toNanos_longest]
    simp only [second, UInt64.size] at *
    omega

namespace Instant

/-- Whether an instant is another one or lies before it. -/
def notAfter (a b : Instant) : Prop :=
  a.seconds < b.seconds ∨ a.seconds = b.seconds ∧ a.nanos ≤ b.nanos

/-- Without leap seconds every second has as many nanoseconds as every other. -/
theorem minus_of_no_leap {a b : Instant} (ha : a.inLeap = false) (hb : b.inLeap = false) :
    a.minus b = (a.seconds - b.seconds) * second + ((a.nanos : Int) - b.nanos) := by
  simp [minus, leapBetween, ha, hb]

variable {a b c : Instant}

/-- A span between instants is no longer than what lies between them. -/
theorem toNanos_since {d : Duration} (span : a.since b = some d) :
    (d.toNanos : Int) ≤ a.minus b := by
  unfold since at span
  split at span
  · rename_i n between
    cases span
    rw [between, Duration.toNanos_ofNanos]
    exact Int.ofNat_le.2 (Nat.min_le_left ..)
  · cases span

/-- Without leap seconds no time runs backwards. -/
theorem minus_nonneg (ha : a.inLeap = false) (hb : b.inLeap = false) (order : a.notAfter b) :
    0 ≤ b.minus a := by
  have below₁ := of_decide_eq_false ha
  have below₂ := of_decide_eq_false hb
  rw [minus_of_no_leap hb ha]
  simp only [notAfter, second] at *
  omega

/-- Without leap seconds the times between three instants add up. -/
theorem minus_add_minus (ha : a.inLeap = false) (hb : b.inLeap = false) (hc : c.inLeap = false) :
    c.minus b + b.minus a = c.minus a := by
  rw [minus_of_no_leap hc hb, minus_of_no_leap hb ha, minus_of_no_leap hc ha]
  simp only [second]
  omega

end Instant

namespace RestartPolicy

variable {state : RestartState} {now : Instant}

/-- The time since the last restart is what lies between, as far as spans go; it is nothing if the
last restart lies ahead. -/
theorem toNanos_elapsed :
    (elapsed state now).toNanos = min (now.minus state.last).toNat Duration.longest.toNanos := by
  unfold elapsed Instant.since
  split
  · rename_i n span
    rw [span]
    exact Duration.toNanos_ofNanos n
  · rename_i n span
    rw [span]
    exact (Nat.zero_min _).symm

theorem elapsed_le (past : 0 ≤ now.minus state.last) :
    ((elapsed state now).toNanos : Int) ≤ now.minus state.last := by
  rw [toNanos_elapsed]
  omega

end RestartPolicy
end Steward
