/-
# Counters stay in range

The runner counts attempts in 32 bits and commands by their place in the plan. Neither counter is
ever checked, so both are followed here through the loop that moves them. An attempt that is made
has a number, and others are left (`Runner.Makes`); the two add up to the attempts that the command
has, so the number of the next attempt fits whenever there is a next one, and one can be taken off
the number of any (`Runner.Makes.number_add_left`). A run that comes to a command has passed as many
as its place says, and these with those ahead are the commands of the plan
(`Runner.Reaches.place_add_length`).

Both relations follow the run itself: what a command or a run comes to in the end is what it comes
to from there on (`Runner.Makes.runs`, `Runner.Reaches.runs`), and the last attempt is the one in
the verdict (`Runner.makes_last`). How often a command is executed is read off a trace
(`Runner.runCommand_executions`).

The other counts are safe for reasons of their own: outcomes that are successes are among the
outcomes, and a restart is decided only below the maximum.

Key definitions: `Runner.Makes`, `Runner.Reaches`, `Doing.isExecution`.
Key theorems: `Runner.Makes.number_add_left`, `Runner.runCommand_executions`,
`Runner.Reaches.place_add_length`, `CycleResult.failed_add_succeeded`, `Runner.counters_in_range`.
-/
import Steward.Proofs.Cycle.Retries
import Steward.Proofs.Restart.Monotonicity

namespace Steward

variable {α σ : Type}

namespace Runner

/-! ### Attempts -/

/-- The attempts that are made at a command from a state on: how many others are left, the number of
the attempt, and the state it is made in. After a failure that is worth it there is another, if one
is left and the delay is not cut short. -/
inductive Makes (r : Runner) (g : Signals σ) (b : Behaviour α σ) (c : Command α) (s₀ : σ) :
    Nat → UInt32 → σ → Prop
  | first : Makes r g b c s₀ (r.attempts.toNat - 1) 1 s₀
  | next {left : Nat} {number : UInt32} {s s₁ s₂ : σ} {e : Error} :
    Makes r g b c s₀ (left + 1) number s → c.execute b .cycle s = (.error e, s₁) →
    e.isCancelled = false → e.isRetryable = true →
    g.wait (r.backoff.window (number - 1)) s₁ = (false, s₂) →
    Makes r g b c s₀ left (number + 1) s₂

variable {r : Runner} {g : Signals σ} {b : Behaviour α σ} {c : Command α} {s₀ s : σ} {left : Nat}
  {number : UInt32}

namespace Makes

/-- The attempts up to one and those left are all that the command has. -/
theorem number_add_left (made : r.Makes g b c s₀ left number s) :
    1 ≤ number.toNat ∧ number.toNat + left = r.attempts.toNat := by
  induction made with
  | first =>
    have pos := r.attempts_pos
    rw [UInt32.toNat_one]
    omega
  | next _ _ _ _ _ ih =>
    have bound := r.attempts.toNat_lt
    rw [Runner.toNat_number_add_one (by omega)]
    omega

/-- None is left exactly if the number has come to the limit. -/
theorem left_eq_zero_iff (made : r.Makes g b c s₀ left number s) :
    left = 0 ↔ r.attempts ≤ number := by
  have sum := made.number_add_left
  rw [UInt32.le_iff_toNat_le]
  omega

/-- The number of the next attempt fits, if there is a next one. -/
theorem toNat_next (made : r.Makes g b c s₀ left number s) (more : ¬ r.attempts ≤ number) :
    (number + 1).toNat = number.toNat + 1 := by
  have sum := made.number_add_left
  have bound := r.attempts.toNat_lt
  have some_left := mt made.left_eq_zero_iff.1 more
  exact Runner.toNat_number_add_one (by omega)

/-- One can be taken off the number. -/
theorem toNat_previous (made : r.Makes g b c s₀ left number s) :
    (number - 1).toNat + 1 = number.toNat := by
  have pos := made.number_add_left.1
  have one : (1 : UInt32) ≤ number := by rwa [UInt32.le_iff_toNat_le, UInt32.toNat_one]
  rw [UInt32.toNat_sub_of_le _ _ one, UInt32.toNat_one]
  omega

/-- What the command comes to is what it comes to from any attempt on. -/
theorem runs (made : r.Makes g b c s₀ left number s) :
    r.runCommand g b c s₀ = r.attempt g b c left number s := by
  induction made with
  | first => rfl
  | next _ executed live retryable waited ih =>
    rw [ih, r.attempt_again executed live retryable waited]

/-- The attempts go on to that in the verdict. -/
theorem last : ∀ {left : Nat} {number : UInt32} {s : σ}, r.Makes g b c s₀ left number s →
    ∃ left' s', r.Makes g b c s₀ left' (r.attempt g b c left number s).1.1.attempts s'
  | left, number, s, made => by
    unfold attempt
    split
    · exact ⟨left, s, made⟩
    · rename_i e s₁ executed
      by_cases cancelled : e.isCancelled = true
      · rw [if_pos cancelled]
        exact ⟨left, s, made⟩
      by_cases final : (!e.isRetryable) = true
      · rw [if_neg cancelled, if_pos final]
        exact ⟨left, s, made⟩
      rw [if_neg cancelled, if_neg final]
      cases left with
      | zero => exact ⟨0, s, made⟩
      | succ left =>
        dsimp only
        split
        · exact ⟨left + 1, s, made⟩
        · rename_i s₂ waited
          exact last (made.next executed (by simpa using cancelled) (by simpa using final) waited)

end Makes

variable (r g b)

/-- The verdict on a command has the number of an attempt that was made. -/
theorem makes_last (c : Command α) (s₀ : σ) :
    ∃ left s, r.Makes g b c s₀ left (r.runCommand g b c s₀).1.1.attempts s :=
  Makes.last .first

end Runner

/-! ### Executions -/

/-- Whether a doing is the execution of a leaf. -/
def Doing.isExecution : Doing α → Bool
  | executed .. => true
  | undone .. | waited _ => false

namespace Runner

variable (r : Runner) (g : Signals σ) (b : Behaviour α σ)

/-- From the attempt with a number on, a leaf is executed as often as the numbers up to that in the
verdict say, and no more often than attempts are left. -/
theorem attempt_executions (a : α) : ∀ (left : Nat) (number : UInt32) (x : σ × List (Doing α)),
    number.toNat + left < 4294967296 →
      ∃ k ≤ left,
        (r.attempt (g.traced α) b.traced (.leaf a) left number x).1.1.attempts.toNat =
          number.toNat + k ∧
        (r.attempt (g.traced α) b.traced (.leaf a) left number x).2.2.countP Doing.isExecution =
          x.2.countP Doing.isExecution + (k + 1)
  | left, number, x, room => by
    have once : (x.2 ++ [Doing.executed .cycle a (b.execute .cycle a x.1).1]).countP
        Doing.isExecution = x.2.countP Doing.isExecution + (0 + 1) := by
      rw [List.countP_append]
      rfl
    have none_more := Nat.zero_le left
    rw [attempt, b.execute_leaf_traced]
    cases executed : b.execute .cycle a x.1 with
    | mk answer s₁ =>
      rw [executed] at once
      cases answer with
      | ok => exact ⟨0, none_more, rfl, once⟩
      | error e =>
        dsimp only
        split
        · exact ⟨0, none_more, rfl, once⟩
        · split
          · exact ⟨0, none_more, rfl, once⟩
          · cases left with
            | zero => exact ⟨0, none_more, rfl, once⟩
            | succ left =>
              have delayed : (x.2 ++ [Doing.executed .cycle a (.error e)] ++
                  [Doing.waited (r.backoff.window (number - 1))]).countP Doing.isExecution =
                    x.2.countP Doing.isExecution + (0 + 1) := by
                rw [List.countP_append]
                exact once
              rw [g.wait_traced]
              dsimp only
              cases g.wait (r.backoff.window (number - 1)) s₁ with
              | mk interrupted s₂ =>
                cases interrupted with
                | true => exact ⟨0, none_more, rfl, delayed⟩
                | false =>
                  have next := Runner.toNat_number_add_one (n := number) (by omega)
                  obtain ⟨k, few, count, executions⟩ := attempt_executions a left (number + 1)
                    (s₂, x.2 ++ [.executed .cycle a (.error e)] ++
                      [.waited (r.backoff.window (number - 1))]) (by omega)
                  refine ⟨k + 1, Nat.succ_le_succ few, by rw [count]; omega, ?_⟩
                  rw [executions, delayed]
                  omega

/-- A command is executed as often as its verdict says, at least once and no more often than it may.
-/
theorem runCommand_executions (c : Command α) (s₀ : σ) :
    ∃ doings,
      r.runCommand (g.traced (Command α)) b.whole.traced (.leaf c) (s₀, []) =
        ((r.runCommand g b c s₀).1, ((r.runCommand g b c s₀).2, doings)) ∧
      doings.countP Doing.isExecution = (r.runCommand g b c s₀).1.1.attempts.toNat ∧
      1 ≤ (r.runCommand g b c s₀).1.1.attempts.toNat ∧
      (r.runCommand g b c s₀).1.1.attempts.toNat ≤ max 1 r.limit.toNat := by
  have plain : Prod.map id Prod.fst
      (r.runCommand (g.traced (Command α)) b.whole.traced (.leaf c) (s₀, [])) =
        r.runCommand g b c s₀ := by
    rw [r.runCommand_over g.traced_over _ fun a _ => b.whole.traced_over.overAt a]
    exact r.attempt_whole g b c _ _ s₀
  have pos := r.attempts_pos
  have bound := r.attempts.toNat_lt
  obtain ⟨k, few, count, executions⟩ := r.attempt_executions g b.whole c (r.attempts.toNat - 1) 1
    (s₀, []) (by rw [UInt32.toNat_one]; omega)
  have one : (1 : UInt32).toNat = 1 := rfl
  rw [← r.attempts_eq, ← plain]
  refine ⟨_, rfl, ?_, ?_, ?_⟩
  · refine executions.trans ?_
    rw [Prod.map_fst, id, runCommand, count, one]
    simp [Nat.add_comm]
  · rw [Prod.map_fst, id, runCommand, count]
    omega
  · rw [Prod.map_fst, id, runCommand, count]
    omega

/-! ### Places in a plan -/

variable [Labelled α]

/-- Where a run of commands comes to from a state on: how many it has passed, those still ahead, and
the state that it is in. A command is passed if it was begun and not interrupted. -/
inductive Reaches (cs : List (Command α)) (s₀ : σ) : Nat → List (Command α) → σ → Prop
  | start : Reaches cs s₀ 0 cs s₀
  | next {place : Nat} {c : Command α} {rest : List (Command α)} {s s₁ s₂ : σ} {v : Verdict} :
    Reaches cs s₀ place (c :: rest) s → g.isCancelled .cycle s = (false, s₁) →
    r.runCommand g b c s₁ = ((v, false), s₂) → Reaches cs s₀ (place + 1) rest s₂

namespace Reaches

variable {r g b} {cs rest : List (Command α)} {s₀ s : σ} {place : Nat}

omit [Labelled α] in
/-- The commands that were passed and those ahead are all. -/
theorem place_add_length (reached : r.Reaches g b cs s₀ place rest s) :
    place + rest.length = cs.length := by
  induction reached with
  | start => exact Nat.zero_add _
  | next _ _ _ ih =>
    rw [List.length_cons] at ih
    omega

/-- Each command that was passed has an outcome, and the run is what it comes to from there on. -/
theorem runs (reached : r.Reaches g b cs s₀ place rest s) :
    ∃ passed, passed.length = place ∧
      (r.runAll g b cs s₀).1.1 = passed ++ (r.runAll g b rest s).1.1 ∧
      (r.runAll g b cs s₀).1.2 = (r.runAll g b rest s).1.2 ∧
      (r.runAll g b cs s₀).2 = (r.runAll g b rest s).2 := by
  induction reached with
  | start => exact ⟨[], rfl, rfl, rfl, rfl⟩
  | @next _ c _ _ _ _ verdict _ looked ended ih =>
    obtain ⟨passed, count, outcomes, cancelled, state⟩ := ih
    rw [r.runAll_cons b looked ended] at outcomes cancelled state
    refine ⟨passed ++ [⟨c.module, c.kind, c.text, verdict⟩], ?_, ?_, cancelled, state⟩
    · rw [List.length_append, count]
      rfl
    · rw [outcomes, List.append_assoc]
      rfl

end Reaches
end Runner

/-! ### Outcomes and restarts -/

namespace CycleResult

/-- The outcomes that are no successes are the others. -/
theorem failed_add_succeeded (result : CycleResult) :
    result.succeeded ≤ result.outcomes.length ∧
      result.failed = result.outcomes.countP (fun o => !o.isSuccess) ∧
      result.failed + result.succeeded = result.outcomes.length := by
  have few : result.succeeded ≤ result.outcomes.length := List.countP_le_length
  have all := List.length_eq_countP_add_countP Outcome.isSuccess (l := result.outcomes)
  simp only [Bool.not_eq_true, Bool.decide_eq_false] at all
  refine ⟨few, ?_, ?_⟩
  · rw [failed, all, succeeded]
    omega
  · rw [failed]
    omega

end CycleResult

/-- A count on which a restart is decided has room for one more, up to the maximum. -/
theorem RestartPolicy.toNat_next_count (p : RestartPolicy) {m : Module} {state : RestartState}
    {now : Instant} (restart : p.decision m state now = .restart) :
    (state.count + 1).toNat = state.count.toNat + 1 ∧ state.count + 1 ≤ p.maxRestarts := by
  have below := UInt32.lt_iff_toNat_lt.1 (p.restart_of_decision restart).2.1
  have bound := p.maxRestarts.toNat_lt
  have next := Runner.toNat_number_add_one (n := state.count) (by omega)
  refine ⟨next, ?_⟩
  rw [UInt32.le_iff_toNat_le, next]
  exact below

/-- **No counter leaves its range.** Whatever the commands do and whatever is heard from outside:

* from each attempt that is made at a command, the command comes to what it comes to from the first;
  the number of the attempt can have one taken off, and there is a number for the next unless it is
  at the limit already; the number in the verdict is that of an attempt that is made;
* a command is executed as often as its verdict says, at least once and at most as often as it may;
* the commands that a run has passed, which are those with an outcome, and those still ahead are all
  commands of the plan;
* there are no more successes than outcomes, and the failures are the others;
* a count on which a restart is decided has room for one more, up to the maximum. -/
theorem Runner.counters_in_range [Labelled α] (r : Runner) (g : Signals σ) (b : Behaviour α σ)
    (p : Plan α) (policy : RestartPolicy) :
    (∀ c s₀, (∀ left number s, r.Makes g b c s₀ left number s →
        r.runCommand g b c s₀ = r.attempt g b c left number s ∧
        (number - 1).toNat + 1 = number.toNat ∧
        (¬ r.attempts ≤ number → (number + 1).toNat = number.toNat + 1) ∧
        (left = 0 ↔ r.attempts ≤ number)) ∧
      (∃ left s, r.Makes g b c s₀ left (r.runCommand g b c s₀).1.1.attempts s) ∧
      ∃ doings, r.runCommand (g.traced (Command α)) b.whole.traced (.leaf c) (s₀, []) =
          ((r.runCommand g b c s₀).1, ((r.runCommand g b c s₀).2, doings)) ∧
        doings.countP Doing.isExecution = (r.runCommand g b c s₀).1.1.attempts.toNat ∧
        1 ≤ (r.runCommand g b c s₀).1.1.attempts.toNat ∧
        (r.runCommand g b c s₀).1.1.attempts.toNat ≤ max 1 r.limit.toNat) ∧
    (∀ s₀ place rest s, r.Reaches g b p.commands s₀ place rest s →
      place ≤ p.size ∧ p.size - place = rest.length ∧
      ∃ passed, passed.length = place ∧
        (r.run g b p s₀).1.outcomes = passed ++ (r.runAll g b rest s).1.1) ∧
    (∀ result : CycleResult, result.succeeded ≤ result.outcomes.length ∧
      result.failed = result.outcomes.countP (fun o => !o.isSuccess) ∧
      result.failed + result.succeeded = result.outcomes.length) ∧
    ∀ m state now, policy.decision m state now = .restart →
      (state.count + 1).toNat = state.count.toNat + 1 ∧ state.count + 1 ≤ policy.maxRestarts := by
  refine ⟨fun c s₀ => ⟨fun left number s made => ?_, r.makes_last g b c s₀,
    r.runCommand_executions g b c s₀⟩, fun s₀ place rest s reached => ?_,
    fun result => result.failed_add_succeeded, fun m state now => policy.toNat_next_count⟩
  · exact ⟨made.runs, made.toNat_previous, made.toNat_next, made.left_eq_zero_iff⟩
  · have all : place + rest.length = p.size := reached.place_add_length
    obtain ⟨passed, count, outcomes, -⟩ := reached.runs
    exact ⟨by omega, by omega, passed, count, outcomes⟩

/-! A sample at the ends of 32 bits: as many attempts as there can be at a command that fails once,
a plan with one command ahead of the second, and the last count on which a restart can be decided. -/

open Runner.Sample in
theorem counters_in_range_sample :
    Runner.Makes { limit := 4294967295 } calm jobs (.leaf .late) false 4294967293 2 true ∧
      ((2 : UInt32) - 1).toNat + 1 = 2 ∧ ((2 : UInt32) + 1).toNat = 3 ∧
      Runner.Reaches { limit := 4294967295 } calm jobs plan.commands false 1 plan.commands.tail
        true ∧
      plan.size - 1 = 2 ∧
      RestartPolicy.decision { maxRestarts := 4294967295 } RestartPolicy.Sample.down
        ⟨4294967294, .epoch⟩ ⟨600, 0⟩ = .restart ∧
      ((4294967294 : UInt32) + 1).toNat = 4294967295 := by
  obtain ⟨attempts, places, -, restarts⟩ := Runner.counters_in_range { limit := 4294967295 } calm
    jobs plan { maxRestarts := 4294967295 }
  have begun : Runner.Makes { limit := 4294967295 } calm jobs (.leaf .late) false 4294967294 1
      false := .first
  have second : Runner.Makes { limit := 4294967295 } calm jobs (.leaf .late) false 4294967293 2
      true := begun.next rfl rfl rfl rfl
  have ended : Runner.runCommand { limit := 4294967295 } calm jobs (.leaf .late) false =
      ((.succeeded 2, false), true) := by
    rw [second.runs]
    exact Runner.attempt_last _ rfl nofun
  have past : Runner.Reaches { limit := 4294967295 } calm jobs plan.commands false 1
      plan.commands.tail true := .next .start rfl ended
  have due : RestartPolicy.decision { maxRestarts := 4294967295 } RestartPolicy.Sample.down
      ⟨4294967294, .epoch⟩ ⟨600, 0⟩ = .restart := by decide +kernel
  obtain ⟨-, previous, following, -⟩ := (attempts (.leaf .late) false).1 _ _ _ second
  exact ⟨second, previous, following (by decide), past, (places _ _ _ _ past).2.1, due,
    (restarts _ _ _ due).1⟩

end Steward
