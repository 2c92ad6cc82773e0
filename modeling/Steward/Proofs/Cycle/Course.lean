/-
# The course of a run

What a run does to a part of the state is what its attempts do to it, one after another. The part is
a view of the state that neither waiting nor a look at the signal changes (`Signals.Keeps`). A
command that is tried `k` times changes the view `k` times, every time but the last by an attempt
that fails (`Tried`, `Runner.runCommand_tried`); a run lets the commands that were begun change it
in their order, and there is one outcome for each of those (`Course`, `Runner.run_course`).

If the commands of other modules leave the view alone, only the commands of one module and their
outcomes count (`Course.filter`), and these are few.

Key definitions: `Tried`, `Runner.Does`, `Course`, `lastSucceeded`.
Key theorems: `Runner.run_moves`, `Runner.run_course`, `Tried.last_attempt`, `Course.filter`,
`Course.lastSucceeded_filter`.
-/
import Steward.Cycle.Runner
import Steward.Proofs.Command.Attempts

namespace Steward

variable {α σ V : Type}

/-! ### Attempts -/

/-- The view before and after a number of attempts of which all but the last fail, and whether the
last one succeeds. -/
inductive Tried (Try : Bool → V → V → Prop) : Nat → Bool → V → V → Prop
  | last {ok : Bool} {v v' : V} : Try ok v v' → Tried Try 1 ok v v'
  | again {k : Nat} {ok : Bool} {v v' v'' : V} :
    Try false v v' → Tried Try k ok v' v'' → Tried Try (k + 1) ok v v''

namespace Tried

variable {Try : Bool → V → V → Prop} {k : Nat} {ok : Bool} {v v' : V}

/-- If failing attempts preserve a property, the last attempt begins with it. -/
theorem last_attempt {P : V → Prop} (fails : ∀ v v', P v → Try false v v' → P v')
    (h : Tried Try k ok v v') (start : P v) : ∃ v₁, P v₁ ∧ Try ok v₁ v' := by
  induction h with
  | last t => exact ⟨_, start, t⟩
  | again t _ ih => exact ih (fails _ _ start t)

/-- If failing attempts leave the view alone, there might have been one attempt. -/
theorem once (fails : ∀ v v', Try false v v' → v' = v) (h : Tried Try k ok v v') : Try ok v v' := by
  obtain ⟨v₁, rfl, last⟩ := h.last_attempt (P := (· = v)) (fun _ _ e t => (fails _ _ t).trans e) rfl
  exact last

/-- If failing attempts leave the view alone, every attempt begins with the same view. -/
theorem from_start {v₀ : V} (fails : ∀ v', Try false v₀ v' → v' = v₀) (h : Tried Try k ok v v') :
    v = v₀ → Tried (fun ok v v' => v = v₀ ∧ Try ok v v') k ok v v' := by
  induction h with
  | last t => exact fun start => .last ⟨start, t⟩
  | again t _ ih =>
    intro start
    exact .again ⟨start, t⟩ (ih (fails _ (start ▸ t)))

/-- What each attempt brings one step further is brought as many steps further as there are
attempts. -/
theorem counted {Q : Nat → V → Prop} {limit : Nat}
    (step : ∀ {j ok v v'}, j < limit → Q j v → Try ok v v' → Q (j + 1) v')
    (h : Tried Try k ok v v') : ∀ {j : Nat}, j + k ≤ limit → Q j v → Q (j + k) v' := by
  induction h with
  | last t => exact fun bound start => step (by omega) start t
  | @again k _ _ _ _ t _ ih =>
    intro j bound start
    have rest := ih (j := j + 1) (by omega) (step (by omega) start t)
    rwa [Nat.add_right_comm, Nat.add_assoc] at rest

theorem pos (h : Tried Try k ok v v') : 1 ≤ k := by
  cases h with
  | last => exact Nat.le_refl 1
  | again => exact Nat.le_add_left 1 _

/-- What every attempt leaves alone is left alone. -/
theorem unchanged (same : ∀ ok v v', Try ok v v' → v' = v) (h : Tried Try k ok v v') : v' = v := by
  induction h with
  | last t => exact same _ _ _ t
  | again t _ ih => exact ih.trans (same _ _ _ t)

end Tried

namespace Runner

variable (r : Runner) {g : Signals σ} (b : Behaviour α σ) {view : σ → V} (c : Command α)

theorem attempts_pos : 1 ≤ r.attempts.toNat := by
  unfold attempts
  split
  · exact Nat.le_refl 1
  · rename_i h
    exact Nat.pos_of_ne_zero fun e => h (UInt32.toNat_inj.1 e)

theorem attempts_eq : r.attempts.toNat = max 1 r.limit.toNat := by
  have pos := r.attempts_pos
  unfold attempts at pos ⊢
  split
  · rename_i none
    rw [none]
    rfl
  · rename_i some
    rw [if_neg some] at pos
    omega

/-- The number after another one, if it fits 32 bits. -/
theorem toNat_number_add_one {n : UInt32} (room : n.toNat + 1 < 4294967296) :
    (n + 1).toNat = n.toNat + 1 := by
  rw [UInt32.toNat_add, UInt32.toNat_one]
  exact Nat.mod_eq_of_lt room

/-- The attempts are told by the number in the verdict, as long as it can be written. -/
theorem attempt_tried (keeps : g.Keeps view) : ∀ (left : Nat) (number : UInt32) (s : σ),
    number.toNat + left < 4294967296 → ∃ k ≤ left + 1,
      (r.attempt g b c left number s).1.1.attempts.toNat + 1 = number.toNat + k ∧
      Tried (Attempted b view c) k (r.attempt g b c left number s).1.1.isSuccess
        (view s) (view (r.attempt g b c left number s).2)
  | left, number, s, room => by
    have once : Attempted b view c (c.execute b .cycle s).1.isOk (view s)
        (view (c.execute b .cycle s).2) := ⟨s, rfl, rfl, rfl⟩
    have one : 1 ≤ left + 1 := Nat.le_add_left 1 left
    unfold attempt
    split
    · rename_i e
      rw [e] at once
      exact ⟨1, one, rfl, .last once⟩
    · rename_i s₁ e
      rw [e] at once
      split
      · exact ⟨1, one, rfl, .last once⟩
      · split
        · exact ⟨1, one, rfl, .last once⟩
        · cases left with
          | zero => exact ⟨1, one, rfl, .last once⟩
          | succ left =>
            have still := keeps.wait (r.backoff.window (number - 1)) s₁
            dsimp only
            split
            · rename_i s₂ w
              rw [w] at still
              exact ⟨1, one, rfl, .last (still ▸ once)⟩
            · rename_i s₂ w
              rw [w] at still
              have next := toNat_number_add_one (n := number) (by omega)
              obtain ⟨k, few, count, tried⟩ :=
                attempt_tried keeps left (number + 1) s₂ (by omega)
              exact ⟨k + 1, Nat.succ_le_succ few, by omega, .again (still ▸ once) tried⟩

/-- A command is tried as often as its verdict says, and at most as often as it may. -/
theorem runCommand_tried (keeps : g.Keeps view) (s : σ) :
    (r.runCommand g b c s).1.1.attempts.toNat ≤ r.attempts.toNat ∧
      Tried (Attempted b view c) (r.runCommand g b c s).1.1.attempts.toNat
        (r.runCommand g b c s).1.1.isSuccess (view s) (view (r.runCommand g b c s).2) := by
  have pos := r.attempts_pos
  have bound := r.attempts.toNat_lt
  obtain ⟨k, few, count, tried⟩ := r.attempt_tried b c keeps (r.attempts.toNat - 1) 1 s
    (by rw [UInt32.toNat_one]; omega)
  rw [UInt32.toNat_one, Nat.add_comm 1] at count
  rw [runCommand, Nat.succ.inj count]
  exact ⟨by omega, tried⟩

/-- What may happen to the view while a command is run. -/
def Does (r : Runner) (b : Behaviour α σ) (view : σ → V) (c : Command α) (ok : Bool) (v v' : V) :
    Prop :=
  ∃ k ≤ r.attempts.toNat, Tried (Attempted b view c) k ok v v'

end Runner

/-! ### What all steps of a run do -/

namespace Runner

variable {r : Runner} {g : Signals σ} {b : Behaviour α σ} {R : σ → σ → Prop} [IsPreorder σ R]

/-- Attempts keep to what one attempt and a delay keep to. -/
theorem attempt_keeps {c : Command α} (execute : ∀ s, R s (c.execute b .cycle s).2)
    (wait : ∀ d s, R s (g.wait d s).2) : ∀ (left : Nat) (number : UInt32) (s : σ),
    R s (r.attempt g b c left number s).2
  | left, number, s => by
    have once := execute s
    unfold attempt
    split
    · rename_i e
      rwa [e] at once
    · rename_i s₁ e
      rw [e] at once
      split
      · exact once
      · split
        · exact once
        · cases left with
          | zero => exact once
          | succ left =>
            have waited := trans_of R once (wait (r.backoff.window (number - 1)) s₁)
            dsimp only
            split
            · rename_i s₂ w
              rwa [w] at waited
            · rename_i s₂ w
              rw [w] at waited
              exact trans_of R waited (attempt_keeps execute wait left (number + 1) s₂)

theorem attempt_moves (wait : ∀ d s, R s (g.wait d s).2) {c : Command α}
    (own : ∀ a ∈ c.leaves, b.Moves R a) (left : Nat) (number : UInt32) (s : σ) :
    R s (r.attempt g b c left number s).2 :=
  attempt_keeps (c.execute_moves own .cycle) wait left number s

variable [Labelled α]

theorem runAll_moves (pause : ∀ s, R s (g.pause s)) (wait : ∀ d s, R s (g.wait d s).2) :
    ∀ (cs : List (Command α)), (∀ c ∈ cs, ∀ a ∈ c.leaves, b.Moves R a) → ∀ s,
      R s (r.runAll g b cs s).2
  | [], _, s => refl_of R s
  | c :: cs, own, s => by
    have looked : R s (g.isCancelled .cycle s).2 := pause s
    rw [runAll]
    split
    · rename_i e
      rwa [e] at looked
    · rename_i s₁ e
      rw [e] at looked
      have first : R s₁ (r.runCommand g b c s₁).2 :=
        attempt_moves wait (own c List.mem_cons_self) _ _ _
      split
      rename_i s₂ e₂
      rw [e₂] at first
      split
      · exact trans_of R looked first
      · have later :=
          runAll_moves pause wait cs (fun c' hc' => own c' (List.mem_cons_of_mem _ hc')) s₂
        split
        rename_i e₃
        rw [e₃] at later
        exact trans_of R (trans_of R looked first) later

/-- A run keeps to what pausing, waiting and all leaves of the plan keep to. -/
theorem run_moves (pause : ∀ s, R s (g.pause s)) (wait : ∀ d s, R s (g.wait d s).2) {p : Plan α}
    (own : ∀ c ∈ p.commands, ∀ a ∈ c.leaves, b.Moves R a) {s s' : σ} {result : CycleResult}
    (ran : r.run g b p s = (result, s')) : R s s' := by
  have moves := runAll_moves (r := r) pause wait p.commands own s
  cases ran
  exact moves

end Runner

/-! ### Runs -/

/-- What a run makes of a list of commands: those that were begun change the view one after another,
and each of them has an outcome. -/
inductive Course [Labelled α] (Does : Command α → Bool → V → V → Prop) :
    List (Command α) → List Outcome → V → V → Prop
  | stop {cs : List (Command α)} {v : V} : Course Does cs [] v v
  | next {c : Command α} {cs : List (Command α)} {o : Outcome} {os : List Outcome} {v v₁ v' : V} :
    o.module = c.module → Does c o.isSuccess v v₁ → Course Does cs os v₁ v' →
    Course Does (c :: cs) (o :: os) v v'

namespace Runner

variable [Labelled α] (r : Runner) {g : Signals σ} (b : Behaviour α σ) {view : σ → V}

theorem runAll_course (keeps : g.Keeps view) : ∀ (cs : List (Command α)) (s : σ),
    Course (r.Does b view) cs (r.runAll g b cs s).1.1 (view s) (view (r.runAll g b cs s).2)
  | [], _ => .stop
  | c :: cs, s => by
    have still := keeps.isCancelled .cycle s
    rw [runAll]
    split
    · rename_i e
      rw [e] at still
      exact still ▸ .stop
    · rename_i s₁ e
      rw [e] at still
      have first : r.Does b view c (r.runCommand g b c s₁).1.1.isSuccess (view s₁)
          (view (r.runCommand g b c s₁).2) := ⟨_, r.runCommand_tried b c keeps s₁⟩
      split
      rename_i verdict interrupted s₂ e₂
      rw [e₂, still] at first
      split
      · exact .next rfl first .stop
      · have later := runAll_course keeps cs s₂
        split
        rename_i e₃
        rw [e₃] at later
        exact .next rfl first later

/-- A run takes its course. -/
theorem run_course (keeps : g.Keeps view) {p : Plan α} {s s' : σ} {result : CycleResult}
    (ran : r.run g b p s = (result, s')) :
    Course (r.Does b view) p.commands result.outcomes (view s) (view s') := by
  have course := r.runAll_course b keeps p.commands s
  cases ran
  exact course

theorem length_runAll : ∀ (cs : List (Command α)) (s : σ), (r.runAll g b cs s).1.2 = false →
    (r.runAll g b cs s).1.1.length = cs.length
  | [], _, _ => rfl
  | c :: cs, s, h => by
    rw [runAll] at h ⊢
    split at h
    · cases h
    · split at h
      split at h
      · cases h
      · rename_i live
        simp only [live] at h ⊢
        exact congrArg Nat.succ (length_runAll cs _ h)

/-- A run goes on after a command that was begun and not interrupted. -/
theorem runAll_cons {c : Command α} {s s₁ s₂ : σ} {verdict : Verdict}
    (looked : g.isCancelled .cycle s = (false, s₁))
    (ended : r.runCommand g b c s₁ = ((verdict, false), s₂)) (cs : List (Command α)) :
    r.runAll g b (c :: cs) s =
      ((⟨c.module, c.kind, c.text, verdict⟩ :: (r.runAll g b cs s₂).1.1,
        (r.runAll g b cs s₂).1.2), (r.runAll g b cs s₂).2) := by
  simp only [runAll, looked, ended]
  rfl

/-- In a run that is not cancelled the first command was begun and not interrupted. -/
theorem begun_of_through {c : Command α} {cs : List (Command α)} {s : σ}
    (through : (r.runAll g b (c :: cs) s).1.2 = false) :
    ∃ s₁ s₂ verdict, g.isCancelled .cycle s = (false, s₁) ∧
      r.runCommand g b c s₁ = ((verdict, false), s₂) := by
  rw [runAll] at through
  split at through
  · cases through
  · rename_i s₁ looked
    split at through
    rename_i verdict interrupted s₂ ended
    split at through
    · cases through
    · rename_i live
      rw [Bool.not_eq_true] at live
      subst live
      exact ⟨s₁, s₂, verdict, looked, ended⟩

/-- Commands in a row are run in a row, if those in front are not cancelled. -/
theorem runAll_append (cs' : List (Command α)) : ∀ {cs : List (Command α)} {s s₁ : σ}
    {os : List Outcome}, r.runAll g b cs s = ((os, false), s₁) →
      r.runAll g b (cs ++ cs') s =
        ((os ++ (r.runAll g b cs' s₁).1.1, (r.runAll g b cs' s₁).1.2), (r.runAll g b cs' s₁).2)
  | [], s, s₁, os, h => by
    cases h
    rfl
  | c :: cs, s, s', os, h => by
    obtain ⟨s₁, s₂, verdict, looked, ended⟩ := r.begun_of_through b (congrArg (·.1.2) h)
    rw [r.runAll_cons b looked ended cs] at h
    rw [List.cons_append, r.runAll_cons b looked ended (cs ++ cs')]
    obtain ⟨outcomes, same⟩ := Prod.mk.inj h
    obtain ⟨rfl, through⟩ := Prod.mk.inj outcomes
    have rest : r.runAll g b cs s₂ = (((r.runAll g b cs s₂).1.1, false), s') := by
      rw [← through, ← same]
    rw [runAll_append cs' rest, List.cons_append]

/-- A run that is not cancelled has an outcome for each command. -/
theorem length_run {p : Plan α} {s s' : σ} {result : CycleResult}
    (ran : r.run g b p s = (result, s')) (full : result.cancelled = false) :
    result.outcomes.length = p.commands.length := by
  cases ran
  exact r.length_runAll b p.commands s full

end Runner

/-! ### The commands of one module -/

namespace Course

variable [Labelled α] {Does : Command α → Bool → V → V → Prop} {cs : List (Command α)}
  {os : List Outcome} {v v' : V}

/-- If the commands of other modules leave the view alone, the commands of the module take the same
course without them. -/
theorem filter {n : String}
    (frame : ∀ c ∈ cs, c.module ≠ n → ∀ ok v v', Does c ok v v' → v' = v)
    (h : Course Does cs os v v') :
    Course Does (cs.filter (·.module == n)) (os.filter (·.module == n)) v v' := by
  induction h with
  | stop => exact .stop
  | @next c cs o os v v₁ v' label does _ ih =>
    have rest := ih fun c' hc' => frame c' (List.mem_cons_of_mem _ hc')
    by_cases own : c.module = n
    · rw [List.filter_cons_of_pos (by simpa using own),
        List.filter_cons_of_pos (by simpa [label] using own)]
      exact .next label does rest
    · rw [List.filter_cons_of_neg (by simpa using own),
        List.filter_cons_of_neg (by simpa [label] using own)]
      exact frame c List.mem_cons_self own _ _ _ does ▸ rest

/-- What all commands preserve, they preserve together. -/
theorem invariant {P : V → Prop} (step : ∀ c ∈ cs, ∀ ok v v', Does c ok v v' → P v → P v')
    (h : Course Does cs os v v') (start : P v) : P v' := by
  induction h with
  | stop => exact start
  | next _ does _ ih =>
    exact ih (fun c hc => step c (List.mem_cons_of_mem _ hc))
      (step _ List.mem_cons_self _ _ _ does start)

/-- Commands in a row take their courses in a row. -/
theorem append {cs' : List (Command α)} : ∀ {cs : List (Command α)} {os : List Outcome} {v v' : V},
    Course Does (cs ++ cs') os v v' →
      ∃ os₁ os₂ v₁, Course Does cs os₁ v v₁ ∧ Course Does cs' os₂ v₁ v'
  | [], os, v, _, h => ⟨[], os, v, .stop, h⟩
  | c :: cs, os, v, v', h => by
    cases h with
    | stop => exact ⟨[], [], v, .stop, .stop⟩
    | next label does later =>
      obtain ⟨os₁, os₂, v₁, first, second⟩ := append later
      exact ⟨_, os₂, v₁, .next label does first, second⟩

/-- If all commands have outcomes, so have those of one module. -/
theorem length_filter (n : String) (h : Course Does cs os v v') (full : os.length = cs.length) :
    (os.filter (·.module == n)).length = (cs.filter (·.module == n)).length := by
  induction h with
  | stop =>
    rw [List.length_eq_zero_iff.1 full.symm]
    rfl
  | next label _ _ ih =>
    have rest := ih (Nat.succ.inj full)
    simp only [List.filter_cons, label]
    split
    · exact congrArg Nat.succ rest
    · exact rest

end Course

/-- Whether the last command that passes the test has an outcome, and that is a success. The
outcomes are those of the first commands, in order. -/
def lastSucceeded (q : Command α → Bool) : List (Command α) → List Outcome → Bool
  | [], _ => false
  | c :: cs, os =>
    if cs.any q then lastSucceeded q cs os.tail else q c && os.head?.any Outcome.isSuccess

theorem lastSucceeded_nil (q : Command α → Bool) :
    ∀ cs : List (Command α), lastSucceeded q cs [] = false
  | [] => rfl
  | c :: cs => by simp [lastSucceeded, lastSucceeded_nil q cs]

theorem lastSucceeded_of_not_any {q : Command α → Bool} :
    ∀ {cs : List (Command α)} {os : List Outcome}, cs.any q = false → lastSucceeded q cs os = false
  | [], _, _ => rfl
  | c :: cs, os, h => by
    rw [List.any_cons, Bool.or_eq_false_iff] at h
    simp [lastSucceeded, h]

/-- If every command has an outcome that is a success, so has the last one that passes the test. -/
theorem lastSucceeded_of_all {q : Command α → Bool} : ∀ {cs : List (Command α)} {os : List Outcome},
    os.length = cs.length → os.all Outcome.isSuccess = true → cs.any q = true →
      lastSucceeded q cs os = true
  | c :: cs, [], full, _, _ => by cases full
  | c :: cs, o :: os, full, success, any => by
    rw [List.all_cons, Bool.and_eq_true] at success
    rw [List.any_cons, Bool.or_eq_true] at any
    rw [lastSucceeded]
    split
    · rename_i later
      exact lastSucceeded_of_all (Nat.succ.inj full) success.2 later
    · rename_i last
      simp [any.resolve_right last, success.1]

/-- Which of a module's commands succeeded last is told by its own outcomes. -/
theorem Course.lastSucceeded_filter [Labelled α] {Does : Command α → Bool → V → V → Prop}
    {cs : List (Command α)} {os : List Outcome} {v v' : V} {n : String} (q : Command α → Bool)
    (h : Course Does cs os v v') :
    lastSucceeded (fun c => c.module == n && q c) cs os =
      lastSucceeded q (cs.filter (·.module == n)) (os.filter (·.module == n)) := by
  induction h with
  | stop => rw [List.filter_nil, lastSucceeded_nil, lastSucceeded_nil]
  | @next c cs o os v v₁ v' label _ _ ih =>
    have any : cs.any (fun c => c.module == n && q c) = (cs.filter (·.module == n)).any q := by
      rw [List.any_filter]
    rw [lastSucceeded, List.tail_cons, ih, any]
    by_cases own : c.module = n
    · rw [List.filter_cons_of_pos (by simpa using own),
        List.filter_cons_of_pos (by simpa [label] using own), lastSucceeded, List.tail_cons]
      simp [own]
    · rw [List.filter_cons_of_neg (by simpa using own),
        List.filter_cons_of_neg (by simpa [label] using own)]
      split
      · rfl
      · rename_i none
        rw [lastSucceeded_of_not_any (Bool.not_eq_true _ ▸ none)]
        simp [own]

/-! ### Short courses -/

/-- A command that is the only one of a module and passes the test: it succeeds last, or it was not
begun, or it failed. -/
theorem Course.single [Labelled α] {Does : Command α → Bool → V → V → Prop} {c : Command α}
    {os : List Outcome} {v v' : V} {q : Command α → Bool} (pass : q c = true)
    (h : Course Does [c] os v v') :
    lastSucceeded q [c] os = true ∧ Does c true v v' ∨
      lastSucceeded q [c] os = false ∧ (v' = v ∨ Does c false v v') := by
  cases h with
  | stop => exact .inr ⟨lastSucceeded_nil q [c], .inl rfl⟩
  | @next _ _ o _ _ _ _ _ does later =>
    cases later
    cases success : o.isSuccess <;> rw [success] at does <;>
      simp [lastSucceeded, pass, success, does]

/-- Of two commands of a module that pass the test the second one counts. -/
theorem Course.pair [Labelled α] {Does : Command α → Bool → V → V → Prop} {c c' : Command α}
    {os : List Outcome} {v v' : V} {q : Command α → Bool} (pass : q c' = true)
    (h : Course Does [c, c'] os v v') :
    lastSucceeded q [c, c'] os = lastSucceeded q [c'] os.tail ∧
      ∃ v₁, (v₁ = v ∨ ∃ ok, Does c ok v v₁) ∧ Course Does [c'] os.tail v₁ v' := by
  have counts : lastSucceeded q [c, c'] os = lastSucceeded q [c'] os.tail := by
    rw [lastSucceeded, if_pos (by simp [pass])]
  refine ⟨counts, ?_⟩
  cases h with
  | stop => exact ⟨v, .inl rfl, .stop⟩
  | next _ does later => exact ⟨_, .inr ⟨_, does⟩, later⟩

/-! ### Success -/

/-- The commands succeed one after another. -/
def Chained (Does : Command α → Bool → V → V → Prop) : List (Command α) → V → V → Prop
  | [], v, v' => v' = v
  | c :: cs, v, v' => ∃ v₁, Does c true v v₁ ∧ Chained Does cs v₁ v'

theorem Course.chained [Labelled α] {Does : Command α → Bool → V → V → Prop}
    {cs : List (Command α)} {os : List Outcome} {v v' : V} (h : Course Does cs os v v')
    (full : os.length = cs.length) (success : os.all Outcome.isSuccess = true) :
    Chained Does cs v v' := by
  induction h with
  | stop =>
    rw [List.length_eq_zero_iff.1 full.symm]
    rfl
  | next _ does _ ih =>
    rw [List.all_cons, Bool.and_eq_true] at success
    exact ⟨_, success.1 ▸ does, ih (Nat.succ.inj full) success.2⟩

end Steward
