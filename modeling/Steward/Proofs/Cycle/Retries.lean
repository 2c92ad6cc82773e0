/-
# Retries

A command is executed as often as its outcome says. Every attempt but the last fails in a way that
is worth another attempt, and is followed by its delay; the last one succeeds, or fails in another
way, or is the last that the command has (`Verdict.Tells`, `Runner.runCommand_traced`). A run in
which nothing is cancelled executes the commands of the plan in this manner one after another, and
has one outcome for each of them (`Accounted`, `Runner.runAll_traced`).

Commands are leaves here, of whatever kind. That covers all commands, for to the runner each of them
is a whole (`Runner.run_whole`).

Key definitions: `Backoff.spaced`, `Series`, `Verdict.Tells`, `Accounted`.
Key theorems: `Runner.attempt_traced`, `Series.tells`, `Runner.runAll_traced`, `Accounted.waiting`,
`Runner.run_retries`.
-/
import Mathlib.Algebra.BigOperators.Intervals
import Steward.Proofs.Cycle.Outcomes
import Steward.Proofs.Cycle.Trace

namespace Steward

variable {α σ : Type}

/-! ### Attempts and their delays -/

/-- Attempts at a command, one for each answer, and a delay between any two; the first delay has the
exponent `j`, and the exponent grows with each. -/
def Backoff.spaced (w : Backoff) (a : α) : Nat → List (Except Error Unit) → List (Doing α)
  | _, [] => []
  | _, [answer] => [.executed .cycle a answer]
  | j, answer :: next :: answers =>
    .executed .cycle a answer :: .waited (w.window (.ofNat j)) ::
      w.spaced a (j + 1) (next :: answers)

theorem Backoff.spaced_cons (w : Backoff) (a : α) (j : Nat) (answer : Except Error Unit)
    {answers : List (Except Error Unit)} (more : answers ≠ []) :
    w.spaced a j (answer :: answers) =
      .executed .cycle a answer :: .waited (w.window (.ofNat j)) :: w.spaced a (j + 1) answers := by
  cases answers with
  | nil => exact absurd rfl more
  | cons => rfl

/-- The verdict after the last attempt of `k`. -/
def Verdict.of (answer : Except Error Unit) (k : UInt32) : Verdict :=
  match answer with
  | .ok () => .succeeded k
  | .error e => .failed e.message k

@[simp] theorem Verdict.attempts_of (answer : Except Error Unit) (k : UInt32) :
    (Verdict.of answer k).attempts = k := by
  cases answer <;> rfl

/-- Failures that are worth another attempt, as long as no more than `left` others are, and an
answer after which there is no other attempt. -/
structure Series (left : Nat) (failures : List Error) (answer : Except Error Unit) : Prop where
  few : failures.length ≤ left
  retryable : ∀ e ∈ failures, e.isRetryable = true
  last : ∀ e, answer = .error e → e.isRetryable = false ∨ failures.length = left

namespace Series

variable {left : Nat} {failures : List Error} {answer : Except Error Unit} {e : Error}

theorem success : Series left [] (.ok ()) :=
  ⟨Nat.zero_le left, nofun, nofun⟩

theorem failure (final : e.isRetryable = false ∨ left = 0) : Series left [] (.error e) where
  few := Nat.zero_le left
  retryable := nofun
  last := by
    rintro _ ⟨⟩
    exact final.imp_right Eq.symm

theorem again (retryable : e.isRetryable = true) (series : Series left failures answer) :
    Series (left + 1) (e :: failures) answer where
  few := Nat.succ_le_succ series.few
  retryable := List.forall_mem_cons.2 ⟨retryable, series.retryable⟩
  last e' h := (series.last e' h).imp_right (congrArg (· + 1))

end Series

namespace Runner

variable (r : Runner) {g : Signals σ} {b : Behaviour α σ} {c : Command α} {left : Nat}
  {number : UInt32} {s s₁ s₂ : σ}

/-- An attempt is the last one if it succeeds, if its failure is not worth another attempt, or if
none is left. -/
theorem attempt_last {answer : Except Error Unit} (made : c.execute b .cycle s = (answer, s₁))
    (final : ∀ e, answer = .error e →
      e.isCancelled = false ∧ (e.isRetryable = false ∨ left = 0)) :
    r.attempt g b c left number s = ((.of answer number, false), s₁) := by
  rw [attempt, made]
  cases answer with
  | ok => rfl
  | error e =>
    obtain ⟨live, final⟩ := final e rfl
    simp only [live, Bool.false_eq_true, if_false]
    by_cases retryable : e.isRetryable = false
    · simp only [retryable, Bool.not_false, if_true]
      rfl
    · obtain rfl := final.resolve_left retryable
      simp only [retryable, Bool.not_eq_true']
      rfl

/-- After a failure that is worth another attempt, and its delay, the next attempt is made. -/
theorem attempt_again {e : Error} (made : c.execute b .cycle s = (.error e, s₁))
    (live : e.isCancelled = false) (retryable : e.isRetryable = true)
    (waited : g.wait (r.backoff.window (number - 1)) s₁ = (false, s₂)) :
    r.attempt g b c (left + 1) number s = r.attempt g b c left (number + 1) s₂ := by
  rw [attempt, made]
  simp only [live, retryable, waited, Bool.false_eq_true, Bool.not_true, if_false]

variable (b)

/-- What is traced of attempts at a leaf: failures that are worth another attempt, each with its
delay, and a last answer, which gives the verdict. -/
theorem attempt_traced (wait : ∀ d s, (g.wait d s).1 = false) {a : α}
    (uncancelled : ∀ s e, (b.execute .cycle a s).1 = .error e → e.isCancelled = false) :
    ∀ (left : Nat) (number : UInt32) (x : σ × List (Doing α)), 1 ≤ number.toNat →
      number.toNat + left < 4294967296 →
      ∃ (failures : List Error) (answer : Except Error Unit) (k : UInt32) (s' : σ),
        Series left failures answer ∧ k.toNat = number.toNat + failures.length ∧
        r.attempt (g.traced α) b.traced (.leaf a) left number x =
          ((.of answer k, false), (s', x.2 ++ r.backoff.spaced a (number.toNat - 1)
            (failures.map .error ++ [answer])))
  | left, number, x, pos, room => by
    have cause := uncancelled x.1
    have made := b.execute_leaf_traced a .cycle x
    cases first : b.execute .cycle a x.1 with
    | mk answer s₁ =>
      rw [first] at cause made
      cases answer with
      | ok => exact ⟨[], .ok (), number, s₁, .success, rfl, r.attempt_last made nofun⟩
      | error e =>
        have live := cause e rfl
        by_cases final : e.isRetryable = false ∨ left = 0
        · refine ⟨[], .error e, number, s₁, .failure final, rfl, r.attempt_last made ?_⟩
          rintro _ ⟨⟩
          exact ⟨live, final⟩
        · obtain ⟨retryable, more⟩ := not_or.1 final
          obtain ⟨left, rfl⟩ := Nat.exists_eq_succ_of_ne_zero more
          have through := wait (r.backoff.window (number - 1)) s₁
          cases delay : g.wait (r.backoff.window (number - 1)) s₁ with
          | mk interrupted s₂ =>
            rw [delay] at through
            obtain rfl : interrupted = false := through
            -- the other attempts follow the failure and its delay in the trace
            have waited := g.wait_traced (α := α) (r.backoff.window (number - 1))
              (s₁, x.2 ++ [.executed .cycle a (.error e)])
            rw [delay] at waited
            have next := toNat_number_add_one (n := number) (by omega)
            obtain ⟨failures, answer, k, s', series, count, ended⟩ :=
              attempt_traced wait uncancelled left (number + 1) _ (by omega) (by omega)
            have exponent : (number + 1).toNat - 1 = number.toNat - 1 + 1 := by omega
            -- the exponent of a delay is the number of the attempt before it, less one
            have delayed : (.ofNat (number.toNat - 1) : UInt32) = number - 1 := by
              rw [UInt32.ofNat_sub pos, UInt32.ofNat_toNat]
              rfl
            refine ⟨e :: failures, answer, k, s', series.again (by simpa using retryable), ?_, ?_⟩
            · rw [List.length_cons]
              omega
            · rw [r.attempt_again made live (by simpa using retryable) waited, ended, exponent,
                List.map_cons, List.cons_append, Backoff.spaced_cons _ _ _ _ (by simp), delayed]
              simp only [List.append_assoc, List.cons_append, List.nil_append]

end Runner

/-! ### What a verdict tells of the answers -/

/-- The first `n` answers are failures that are worth another attempt. -/
def Vain (answers : List (Except Error Unit)) (n : Nat) : Prop :=
  ∀ i < n, ∃ e, answers[i]? = some (.error e) ∧ e.isRetryable = true

/-- A verdict tells how many answers there are, which are some but no more than `limit`, that all
but the last are in vain, and what the last is. A last answer that is in vain as well is the one
that exhausts the limit. -/
structure Verdict.Tells (limit : Nat) (answers : List (Except Error Unit)) (v : Verdict) :
    Prop where
  length : answers.length = v.attempts.toNat
  begun : 1 ≤ v.attempts.toNat
  within : v.attempts.toNat ≤ limit
  succeeded : ∀ k, v = .succeeded k ↔
    1 ≤ k.toNat ∧ Vain answers (k.toNat - 1) ∧ answers[k.toNat - 1]? = some (.ok ())
  failed : ∀ message k, v = .failed message k ↔
    1 ≤ k.toNat ∧ Vain answers (k.toNat - 1) ∧ ∃ e, answers[k.toNat - 1]? = some (.error e) ∧
      e.message = message ∧ (e.isRetryable = false ∨ k.toNat = limit)

namespace Series

variable {left : Nat} {failures : List Error} {answer : Except Error Unit} {k : UInt32}

/-- The answers of a series in order. -/
abbrev answers (failures : List Error) (answer : Except Error Unit) : List (Except Error Unit) :=
  failures.map .error ++ [answer]

theorem getElem?_answers_last (failures : List Error) (answer : Except Error Unit) :
    (answers failures answer)[failures.length]? = some answer := by
  have last := List.getElem?_concat_length (l := failures.map Except.error) (a := answer)
  rwa [List.length_map] at last

/-- All answers but the last are failures that are worth another attempt. -/
theorem vain (series : Series left failures answer) {n : Nat} (le : n ≤ failures.length) :
    Vain (answers failures answer) n := by
  intro i lt
  have inside : i < failures.length := Nat.lt_of_lt_of_le lt le
  refine ⟨failures[i], ?_, series.retryable _ (List.getElem_mem inside)⟩
  rw [List.getElem?_append_left (by rwa [List.length_map]), List.getElem?_map,
    List.getElem?_eq_getElem inside]
  rfl

/-- An answer after which there is no other attempt is the last one. -/
theorem last_of_final (series : Series left failures answer) {i : Nat} {found : Except Error Unit}
    (at_i : (answers failures answer)[i]? = some found)
    (final : ∀ e, found = .error e → e.isRetryable = false ∨ i = left) :
    i = failures.length ∧ found = answer := by
  have bound := (List.getElem?_eq_some_iff.1 at_i).1
  rw [List.length_append, List.length_map, List.length_singleton] at bound
  rcases Nat.lt_succ_iff_lt_or_eq.1 bound with before | rfl
  · -- an answer before the last is worth another attempt, and another is left
    obtain ⟨e, there, retryable⟩ := series.vain (Nat.le_refl _) i before
    rw [there] at at_i
    cases at_i
    rcases final e rfl with final | exhausted
    · rw [retryable] at final
      cases final
    · have few := series.few
      omega
  · rw [getElem?_answers_last] at at_i
    exact ⟨rfl, (Option.some.inj at_i).symm⟩

/-- The verdict on a series tells of its answers. -/
theorem tells (series : Series left failures answer) (count : k.toNat = failures.length + 1) :
    (Verdict.of answer k).Tells (left + 1) (answers failures answer) := by
  have few := series.few
  have same : ∀ {j : UInt32}, 1 ≤ j.toNat → j.toNat - 1 = failures.length → j = k := by
    intro j pos eq
    exact UInt32.toNat_inj.1 (by omega)
  have last : (answers failures answer)[k.toNat - 1]? = some answer := by
    rw [count, Nat.add_sub_cancel, getElem?_answers_last]
  have before : Vain (answers failures answer) (k.toNat - 1) := series.vain (by omega)
  have pos : 1 ≤ k.toNat := by omega
  constructor
  case length => simp [count]
  case begun => rwa [Verdict.attempts_of]
  case within =>
    rw [Verdict.attempts_of]
    omega
  case succeeded =>
    intro j
    constructor
    · intro told
      cases answer with
      | ok =>
        cases told
        exact ⟨pos, before, last⟩
      | error => cases told
    · rintro ⟨begun, -, there⟩
      obtain ⟨eq, rfl⟩ := series.last_of_final there nofun
      rw [same begun eq]
      rfl
  case failed =>
    intro message j
    constructor
    · intro told
      cases answer with
      | ok => cases told
      | error e =>
        cases told
        refine ⟨pos, before, e, last, rfl, (series.last e rfl).imp_right fun exhausted => ?_⟩
        omega
    · rintro ⟨begun, -, e, there, rfl, final⟩
      have exhausts : j.toNat = left + 1 → j.toNat - 1 = left := by omega
      obtain ⟨eq, rfl⟩ := series.last_of_final there (by
        rintro _ ⟨⟩
        exact final.imp_right exhausts)
      rw [same begun eq]
      rfl

end Series

/-! ### Runs -/

/-- What a run makes of leaves in order: each has an outcome with its kind, module and words, whose
verdict tells of the answers to its attempts, and these are made, with their delays, before the next
leaf has its turn. -/
inductive Accounted [Labelled α] (r : Runner) :
    List α → List Outcome → List (Doing α) → Prop
  | nil : Accounted r [] [] []
  | cons {a : α} {as : List α} {o : Outcome} {os : List Outcome} {doings : List (Doing α)}
    {answers : List (Except Error Unit)} :
    o.label = (Labelled.kind a, Labelled.module a, Labelled.text a) →
    o.verdict.Tells (max 1 r.limit.toNat) answers → Accounted r as os doings →
    Accounted r (a :: as) (o :: os) (r.backoff.spaced a 0 answers ++ doings)

namespace Runner

variable (r : Runner) {g : Signals σ} (b : Behaviour α σ)

/-- A leaf is executed as often as the verdict says, with a delay between any two attempts. -/
theorem runCommand_traced (wait : ∀ d s, (g.wait d s).1 = false) {a : α}
    (uncancelled : ∀ s e, (b.execute .cycle a s).1 = .error e → e.isCancelled = false)
    (x : σ × List (Doing α)) : ∃ verdict answers s',
      r.runCommand (g.traced α) b.traced (.leaf a) x =
        ((verdict, false), (s', x.2 ++ r.backoff.spaced a 0 answers)) ∧
      verdict.Tells (max 1 r.limit.toNat) answers := by
  have pos := r.attempts_pos
  have bound := r.attempts.toNat_lt
  obtain ⟨failures, answer, k, s', series, count, ended⟩ :=
    r.attempt_traced b wait uncancelled (r.attempts.toNat - 1) 1 x (Nat.le_refl 1)
      (by rw [UInt32.toNat_one]; omega)
  rw [UInt32.toNat_one, Nat.add_comm] at count
  have told := series.tells count
  rw [Nat.sub_add_cancel pos, r.attempts_eq] at told
  exact ⟨.of answer k, Series.answers failures answer, s', ended, told⟩

variable [Labelled α]

theorem runAll_traced (live : g.Live) : ∀ (as : List α) (x : σ × List (Doing α)),
    (∀ a ∈ as, ∀ s e, (b.execute .cycle a s).1 = .error e → e.isCancelled = false) →
    ∃ os s' doings, r.runAll (g.traced α) b.traced (as.map .leaf) x =
        ((os, false), (s', x.2 ++ doings)) ∧ Accounted r as os doings
  | [], x, _ => ⟨[], x.1, [], by rw [List.append_nil]; rfl, .nil⟩
  | a :: as, x, uncancelled => by
    have looked : (g.traced α).isCancelled .cycle x = (false, (g.pause x.1, x.2)) := by
      simp [Signals.isCancelled, Signals.traced, live.cancelled]
    obtain ⟨verdict, answers, s₁, ended, told⟩ :=
      r.runCommand_traced b live.wait (uncancelled a List.mem_cons_self) (g.pause x.1, x.2)
    obtain ⟨os, s₂, doings, later, accounted⟩ :=
      runAll_traced live as (s₁, x.2 ++ r.backoff.spaced a 0 answers)
        (fun a' ha' => uncancelled a' (List.mem_cons_of_mem _ ha'))
    refine ⟨_, s₂, _, ?_, .cons (o := ⟨_, _, _, verdict⟩) rfl told accounted⟩
    rw [List.map_cons, runAll, looked]
    simp only [ended, later, Bool.false_eq_true, if_false, List.append_assoc]
    rfl

end Runner

/-! ### The time that is waited -/

/-- How long a doing waits. -/
def Doing.nanos : Doing α → Nat
  | waited d => d.toNanos
  | executed .. | undone .. => 0

/-- The delays between attempts are those of the first exponents. -/
theorem Backoff.nanos_spaced (w : Backoff) (a : α) : ∀ (answers : List (Except Error Unit))
    (j : Nat), ((w.spaced a j answers).map Doing.nanos).sum =
      ∑ i ∈ Finset.range (answers.length - 1), (w.window (.ofNat (j + i))).toNanos
  | [], _ | [_], _ => rfl
  | answer :: next :: answers, j => by
    have later := w.nanos_spaced a (next :: answers) (j + 1)
    simp only [List.length_cons, Nat.add_sub_cancel] at later ⊢
    rw [Finset.sum_range_succ', spaced, List.map_cons, List.map_cons, List.sum_cons, List.sum_cons,
      later, Doing.nanos, Doing.nanos, Nat.zero_add, Nat.add_comm]
    simp only [Nat.add_assoc, Nat.add_comm 1, Nat.add_zero]

/-- The time waited for a verdict: the delays of as many exponents as there are attempts but the
first. -/
def Runner.waitedFor (r : Runner) (v : Verdict) : Nat :=
  ∑ i ∈ Finset.range (v.attempts.toNat - 1), (r.backoff.window (.ofNat i)).toNanos

namespace Accounted

variable [Labelled α] {r : Runner} {as : List α} {os : List Outcome} {doings : List (Doing α)}

theorem labels (account : Accounted r as os doings) :
    os.map Outcome.label =
      as.map fun a => (Labelled.kind a, Labelled.module a, Labelled.text a) := by
  induction account with
  | nil => rfl
  | cons label _ _ ih => rw [List.map_cons, List.map_cons, label, ih]

/-- The time waited in all is what the outcomes say. -/
theorem waiting (account : Accounted r as os doings) :
    (doings.map Doing.nanos).sum = (os.map fun o => r.waitedFor o.verdict).sum := by
  induction account with
  | nil => rfl
  | cons _ told _ ih =>
    rw [List.map_append, List.sum_append, List.map_cons, List.sum_cons, ih,
      Backoff.nanos_spaced, told.length]
    simp only [Runner.waitedFor, Nat.zero_add]

end Accounted

namespace Runner

variable (r : Runner) {g : Signals σ} (b : Behaviour α σ) [Labelled α]

/-- **Retries.** Let nobody cancel the cycle, and no command of a plan fail by cancellation; let all
that is done with the commands be traced, which has no influence. Then the run is not cancelled, and
there is an outcome for each command, in the order of the plan. Before the next command has its
turn, each is executed as often as its outcome says, at least once and at most as often as it may;
it succeeded, or failed with a message, exactly if all calls but the last failed in a way that is
worth another attempt and the last one succeeded, or failed with this message in another way or as
the last that there may be. The time waited is that of the delays between the calls. -/
theorem run_retries (live : g.Live) {p : Plan α}
    (uncancelled : ∀ c ∈ p.commands, ∀ s e, (c.execute b .cycle s).1 = .error e →
      e.isCancelled = false) (s : σ) :
    ∃ result s' doings,
      r.run (g.traced (Command α)) b.whole.traced p.whole (s, []) = (result, (s', doings)) ∧
      r.run g b p s = (result, s') ∧ result.cancelled = false ∧
      result.outcomes.map Outcome.label = p.labels ∧
      Accounted r p.commands result.outcomes doings ∧
      (doings.map Doing.nanos).sum = (result.outcomes.map fun o => r.waitedFor o.verdict).sum := by
  obtain ⟨os, s', doings, all, account⟩ :=
    r.runAll_traced b.whole live p.commands (s, []) uncancelled
  rw [List.nil_append] at all
  have traced : r.run (g.traced (Command α)) b.whole.traced p.whole (s, []) =
      ({ outcomes := os, startedAt := g.now s, finishedAt := g.now s' }, (s', doings)) := by
    simp only [run, Plan.whole, all]
    rfl
  have plain := r.run_traced g b.whole p.whole (s, [])
  rw [traced, r.run_whole] at plain
  exact ⟨_, s', doings, traced, plain.symm, rfl, account.labels, account, account.waiting⟩

end Runner

/-! A sample: two attempts for each of three commands, of which the first is late, the second is
refused and the third never succeeds. -/

namespace Runner.Sample

inductive Job where
  | late
  | refused
  | hopeless

instance : Labelled Job where
  kind _ := .start
  module
    | .late => "a"
    | .refused => "b"
    | .hopeless => "c"
  text _ := "begin"

/-- The state says whether the late one was tried before. -/
def jobs : Behaviour Job Bool where
  execute _ job tried :=
    match job, tried with
    | .late, false => (.error (.io "busy"), true)
    | .late, true => (.ok (), true)
    | .refused, _ => (.error (.command (.misconfigured "b" "no image")), tried)
    | .hopeless, _ => (.error (.io "gone"), tried)
  undo _ _ tried := (.ok (), tried)

def calm : Signals Bool where
  pause := id
  cancelled _ := false
  now _ := .epoch
  wait _ tried := (false, tried)

def plan : Plan Job where
  commands := [.leaf .late, .group .update "b" [.leaf .late, .leaf .refused], .leaf .hopeless]

theorem jobs_uncancelled (job : Job) (t : Token) (tried : Bool) (e : Error)
    (failed : (jobs.execute t job tried).1 = .error e) : e.isCancelled = false := by
  cases job <;> cases tried <;> cases failed <;> rfl

end Runner.Sample

open Runner.Sample in
theorem run_retries_sample :
    calm.Live ∧
    (∀ c ∈ plan.commands, ∀ s e, (c.execute jobs .cycle s).1 = .error e →
      e.isCancelled = false) ∧
    ∃ result s' doings, ({ limit := 2 } : Runner).run calm jobs plan false = (result, s') ∧
      result.outcomes.map Outcome.verdict =
        [.succeeded 2, .failed (Error.command (.misconfigured "b" "no image")).message 1,
          .failed (Error.io "gone").message 2] ∧
      Accounted { limit := 2 } plan.commands result.outcomes doings ∧
      (doings.map Doing.nanos).sum = 20000000000 := by
  have live : calm.Live := ⟨fun _ => rfl, fun _ _ => rfl⟩
  have uncancelled : ∀ c ∈ plan.commands, ∀ s e, (c.execute jobs .cycle s).1 = .error e →
      e.isCancelled = false := fun c _ =>
    c.execute_error (fun job _ t s e => jobs_uncancelled job t s e) .cycle
  obtain ⟨result, s', doings, traced, ran, -, -, account, -⟩ :=
    Runner.run_retries { limit := 2 } jobs live uncancelled false
  have verdicts : (({ limit := 2 } : Runner).run calm jobs plan false).1.outcomes.map
      Outcome.verdict = [.succeeded 2,
        .failed (Error.command (.misconfigured "b" "no image")).message 1,
        .failed (Error.io "gone").message 2] := rfl
  have waited : (((({ limit := 2 } : Runner).run (calm.traced (Command Job)) jobs.whole.traced
      plan.whole (false, [])).2.2).map Doing.nanos).sum = 20000000000 := rfl
  rw [ran] at verdicts
  rw [traced] at waited
  exact ⟨live, uncancelled, result, s', doings, ran, verdicts, account, waited⟩

end Steward
