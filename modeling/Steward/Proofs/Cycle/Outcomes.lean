/-
# The outcomes of a run

The outcomes belong to the first commands of the plan, in their order (`Runner.run_labels`). If the
run was not cancelled, every command has one; if it was, some command has none or the last outcome
is a failure (`Runner.cut_short_of_cancelled`), for only a failure is ever interrupted.

A run of which no command can fail by cancellation, on which no delay is cut short and which nobody
cancels, goes through to its end (`Runner.goes_through`), and each command is run from where those
before it left off (`Runner.through_at`).

Key definitions: `Outcome.label`, `Signals.Live`.
Key theorems: `Runner.run_labels`, `Runner.cut_short_of_cancelled`, `Command.execute_error`,
`Runner.goes_through`, `Runner.through_at`.
-/
import Steward.Proofs.Cycle.Course

namespace Steward

variable {α σ : Type}

/-- What an outcome says of its command. -/
def Outcome.label (o : Outcome) : CommandKind × String × String := (o.kind, o.module, o.command)

/-! ### Errors of a command -/

namespace Command

variable {b : Behaviour α σ} {P : Error → Prop}

mutual

/-- A command fails as one of its leaves does. -/
theorem execute_error : ∀ (c : Command α),
    (∀ a ∈ c.leaves, ∀ t s e, (b.execute t a s).1 = .error e → P e) →
    ∀ t s e, (c.execute b t s).1 = .error e → P e
  | leaf a, leaves, t, s, e, failed => leaves a (List.mem_singleton_self a) t s e failed
  | group _ _ cs, leaves, t, s, e, failed => executeAll_error cs leaves t s e failed

theorem executeAll_error : ∀ (cs : List (Command α)),
    (∀ a ∈ leavesOf cs, ∀ t s e, (b.execute t a s).1 = .error e → P e) →
    ∀ t s e, (executeAll b t cs s).1 = .error e → P e
  | [], _, _, _, _, failed => nomatch failed
  | c :: cs, leaves, t, s, e, failed => by
    have first := execute_error c (fun a ha => leaves a (List.mem_append_left _ ha)) t s
    have later := executeAll_error cs (fun a ha => leaves a (List.mem_append_right _ ha)) t
    rw [executeAll] at failed
    split at failed
    · rename_i e₁ s₁ h₁
      rw [h₁] at first
      have same : e₁ = e := Except.error.inj failed
      exact same ▸ first e₁ rfl
    · rename_i s₁ h₁
      split at failed
      · cases failed
      · rename_i e₂ s₂ h₂
        have same : e₂ = e := Except.error.inj failed
        have cause := later s₁ e₂
        rw [h₂] at cause
        exact same ▸ cause rfl

end

end Command

namespace Runner

variable (r : Runner) {g : Signals σ} (b : Behaviour α σ)

/-! ### Interruptions -/

/-- Only a failure is interrupted. -/
theorem attempt_interrupted (c : Command α) : ∀ (left : Nat) (number : UInt32) (s : σ),
    (r.attempt g b c left number s).1.2 = true →
      (r.attempt g b c left number s).1.1.isSuccess = false
  | left, number, s => by
    unfold attempt
    intro interrupted
    split at interrupted
    · cases interrupted
    · rename_i e s₁ failed
      by_cases cancelled : e.isCancelled = true
      · rw [if_pos cancelled]
        rfl
      · rw [if_neg cancelled] at interrupted ⊢
        by_cases final : (!e.isRetryable) = true
        · rw [if_pos final]
          rfl
        · rw [if_neg final] at interrupted ⊢
          cases left with
          | zero => rfl
          | succ left =>
            dsimp only at interrupted ⊢
            split at interrupted
            · rfl
            · exact attempt_interrupted c left (number + 1) _ interrupted

/-- A command that cannot fail by cancellation, and of which no delay is cut short, is not
interrupted. -/
theorem attempt_through (wait : ∀ d s, (g.wait d s).1 = false) {c : Command α}
    (uncancelled : ∀ s e, (c.execute b .cycle s).1 = .error e → e.isCancelled = false) :
    ∀ (left : Nat) (number : UInt32) (s : σ), (r.attempt g b c left number s).1.2 = false
  | left, number, s => by
    have cause := uncancelled s
    unfold attempt
    split
    · rfl
    · rename_i e s₁ failed
      rw [failed] at cause
      have live : ¬ e.isCancelled = true := by rw [cause e rfl]; exact Bool.false_ne_true
      rw [if_neg live]
      by_cases final : (!e.isRetryable) = true
      · rw [if_pos final]
      · rw [if_neg final]
        cases left with
        | zero => rfl
        | succ left =>
          have waited := wait (r.backoff.window (number - 1)) s₁
          dsimp only
          split
          · rename_i s₂ cut
            rw [cut] at waited
            cases waited
          · exact attempt_through wait uncancelled left (number + 1) _

/-! ### Labels -/

variable [Labelled α]

theorem runAll_labels : ∀ (cs : List (Command α)) (s : σ),
    ∃ rest, cs.map (fun c => (c.kind, c.module, c.text)) =
      (r.runAll g b cs s).1.1.map Outcome.label ++ rest
  | [], _ => ⟨[], rfl⟩
  | c :: cs, s => by
    rw [runAll]
    split
    · exact ⟨_, rfl⟩
    · rename_i s₁ looked
      split
      rename_i verdict interrupted s₂ ended
      split
      · exact ⟨cs.map _, rfl⟩
      · obtain ⟨rest, same⟩ := runAll_labels cs s₂
        exact ⟨rest, congrArg (_ :: ·) same⟩

/-- The outcomes of a run are those of the first commands of the plan, in order. -/
theorem run_labels {p : Plan α} {s s' : σ} {result : CycleResult}
    (ran : r.run g b p s = (result, s')) :
    result.outcomes.map Outcome.label = p.labels.take result.outcomes.length := by
  obtain ⟨rest, same⟩ := r.runAll_labels (g := g) b p.commands s
  cases ran
  have whole : p.labels = (r.runAll g b p.commands s).1.1.map Outcome.label ++ rest := same
  rw [whole, List.take_left' (List.length_map _)]

theorem runAll_cut_short : ∀ (cs : List (Command α)) (s : σ), (r.runAll g b cs s).1.2 = true →
    (r.runAll g b cs s).1.1.length < cs.length ∨
      ∃ o, (r.runAll g b cs s).1.1.getLast? = some o ∧ o.isSuccess = false
  | [], _, h => nomatch h
  | c :: cs, s, h => by
    rw [runAll] at h ⊢
    split at h
    · exact .inl (Nat.succ_pos _)
    · rename_i s₁ looked
      have failure := r.attempt_interrupted (g := g) b c (r.attempts.toNat - 1) 1 s₁
      split at h
      rename_i verdict interrupted s₂ ended
      rw [runCommand] at ended
      rw [ended] at failure
      split at h
      · rename_i cut
        exact .inr ⟨⟨c.module, c.kind, c.text, verdict⟩, by simp only [if_pos cut]; rfl, failure cut⟩
      · rename_i live
        rw [if_neg live]
        rcases runAll_cut_short cs s₂ h with less | ⟨o, last, failed⟩
        · exact .inl (Nat.succ_lt_succ less)
        · have some_left : (r.runAll g b cs s₂).1.1 ≠ [] := fun none => by simp [none] at last
          exact .inr ⟨o, (List.getLast?_cons_of_ne_nil some_left).trans last, failed⟩

/-- Of a run that was cancelled some command has no outcome, or the last outcome is a failure. -/
theorem cut_short_of_cancelled {p : Plan α} {s s' : σ} {result : CycleResult}
    (ran : r.run g b p s = (result, s')) (cancelled : result.cancelled = true) :
    result.outcomes.length < p.commands.length ∨
      ∃ o, result.outcomes.getLast? = some o ∧ o.isSuccess = false := by
  cases ran
  exact r.runAll_cut_short b p.commands s cancelled

end Runner

/-! ### Runs that go through -/

/-- Nobody cancels the cycle, and no delay is cut short. -/
structure Signals.Live (g : Signals σ) : Prop where
  cancelled : ∀ s, g.cancelled s = false
  wait : ∀ d s, (g.wait d s).1 = false

theorem Signals.Live.isCancelled {g : Signals σ} (live : g.Live) (t : Token) (s : σ) :
    (g.isCancelled t s).1 = false := by
  simp [Signals.isCancelled, live.cancelled]

/-- A leaf that nobody cancels is carried out after the look at its token. -/
theorem Action.execute_live {h : Host σ} (live : h.toSignals.Live) (t : Token) (a : Action)
    (s : σ) : a.execute h t s = a.carryOut h t (h.isCancelled t s).2 := by
  have looked := live.isCancelled t s
  simp only [execute, Host.ensureLive]
  cases look : h.isCancelled t s with
  | mk cancelled s₁ =>
    rw [look] at looked
    have none : cancelled = false := looked
    subst none
    rfl

namespace Runner

variable (r : Runner) {g : Signals σ} (b : Behaviour α σ) [Labelled α]

theorem runAll_through (live : g.Live) : ∀ (cs : List (Command α)),
    (∀ c ∈ cs, ∀ a ∈ c.leaves, ∀ t s e, (b.execute t a s).1 = .error e → e.isCancelled = false) →
    ∀ s, (r.runAll g b cs s).1.2 = false
  | [], _, _ => rfl
  | c :: cs, leaves, s => by
    have looked := live.isCancelled .cycle s
    rw [runAll]
    split
    · rename_i s₁ e
      rw [e] at looked
      cases looked
    · rename_i s₁ e
      have through := r.attempt_through (g := g) b live.wait
        (c.execute_error (leaves c List.mem_cons_self) .cycle) (r.attempts.toNat - 1) 1 s₁
      split
      rename_i verdict interrupted s₂ ended
      rw [runCommand] at ended
      rw [ended] at through
      have later := runAll_through live cs (fun c' hc' => leaves c' (List.mem_cons_of_mem _ hc')) s₂
      rw [if_neg (by simpa using through)]
      exact later

/-- A run that nothing cuts short has an outcome for each command of the plan. -/
theorem goes_through (live : g.Live) {p : Plan α} {s s' : σ} {result : CycleResult}
    (leaves : ∀ c ∈ p.commands, ∀ a ∈ c.leaves, ∀ t s e,
      (b.execute t a s).1 = .error e → e.isCancelled = false)
    (ran : r.run g b p s = (result, s')) :
    result.cancelled = false ∧ result.outcomes.map Outcome.label = p.labels := by
  have full : result.cancelled = false := by
    cases ran
    exact r.runAll_through b live p.commands leaves s
  refine ⟨full, ?_⟩
  have all : result.outcomes.length = p.labels.length :=
    (r.length_run b ran full).trans (List.length_map _).symm
  rw [r.run_labels b ran, all, List.take_length]

/-- In a run that nothing cuts short each command is run from where those before it left off, and
its verdict is in the outcome. -/
theorem through_at (live : g.Live) {p : Plan α} {before after : List (Command α)} {c : Command α}
    (leaves : ∀ c ∈ p.commands, ∀ a ∈ c.leaves, ∀ t s e,
      (b.execute t a s).1 = .error e → e.isCancelled = false)
    (split : p.commands = before ++ c :: after) {s s' : σ} {result : CycleResult}
    (ran : r.run g b p s = (result, s')) :
    ∃ os₁ os₂ s₁ s₂ s₃ verdict, r.runAll g b before s = ((os₁, false), s₁) ∧
      g.isCancelled .cycle s₁ = (false, s₂) ∧ r.runCommand g b c s₂ = ((verdict, false), s₃) ∧
      r.runAll g b after s₃ = ((os₂, false), s') ∧
      result.outcomes = os₁ ++ ⟨c.module, c.kind, c.text, verdict⟩ :: os₂ := by
  rw [split] at leaves
  have first := r.runAll_through b live before
    (fun c' hc' => leaves c' (List.mem_append_left _ hc')) s
  cases front : r.runAll g b before s with
  | mk outcome s₁ =>
    obtain ⟨os₁, cancelled⟩ := outcome
    rw [front] at first
    obtain rfl : cancelled = false := first
    have rest := r.runAll_through b live (c :: after)
      (fun c' hc' => leaves c' (List.mem_append_right _ hc')) s₁
    obtain ⟨s₂, s₃, verdict, looked, ended⟩ := r.begun_of_through b rest
    have last := r.runAll_through b live after
      (fun c' hc' => leaves c' (List.mem_append_right _ (List.mem_cons_of_mem _ hc'))) s₃
    have whole := r.runAll_append b (c :: after) front
    rw [← split, r.runAll_cons b looked ended after] at whole
    simp only [run, whole] at ran
    cases ran
    refine ⟨os₁, _, s₁, s₂, s₃, verdict, rfl, looked, ended, ?_, rfl⟩
    rw [← last]

end Runner
end Steward
