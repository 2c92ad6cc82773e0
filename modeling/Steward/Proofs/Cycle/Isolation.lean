/-
# Modules do not disturb each other

On a host where the requests for a module are answered, and take effect, from what that module has
had to do with the runtime before, a run falls apart into the runs of the single modules
(`Host.Isolates.run_alone`). What one module is part of, its outcomes, its requests, its entry and
its restart state, is what a run of its own commands alone gives, on a host that knows of no other
module (`Responder.alone`).

So two runs of one plan, on runtimes that treat all modules but one alike, are alike for all modules
but that one, however its commands fail, are tried again or are taken back
(`Host.Isolates.outcomes_isolated`).

The commands of a module act on its share of the state as those of the host that is alone do; the
commands of the others leave the share as it is. The projection to the share thus commutes with each
command of a run, and with the run by induction on the plan.

Key definitions: `Dealings`, `Responder`, `Responder.alone`, `Host.Isolates`, `share`,
`Host.ofResponders`.
Key theorems: `Runner.runAll_alone`, `Host.Isolates.run_alone`, `Host.Isolates.outcomes_isolated`,
`Host.isolates_ofResponders`.
-/
import Steward.Proofs.Cycle.Convergence
import Steward.Proofs.Cycle.Outcomes
import Steward.Proofs.Cycle.Simulation
import Steward.Proofs.Device.Memory

namespace Steward

variable {α σ τ : Type}

/-! ### The commands of one module -/

namespace Runner

variable [Labelled α] (r : Runner) {g' : Signals σ} {g : Signals τ} {b' : Behaviour α σ}
  {b : Behaviour α τ} {π : σ → τ}

/-- If the commands of a module act on a part of the state as on a host of its own, and all else
leaves the part alone, the outcomes of the module's commands and the part are those of a run without
the other commands. -/
theorem runAll_alone {n : String} (signals : g'.Over π g) (keeps : g'.Keeps π) (live : g'.Live) :
    ∀ (cs : List (Command α)),
    (∀ c ∈ cs, c.module = n → ∀ a ∈ c.leaves, b'.OverAt π b a) →
    (∀ c ∈ cs, c.module ≠ n → ∀ a ∈ c.leaves, b'.Moves (fun s s' => π s' = π s) a) →
    (∀ c ∈ cs, ∀ a ∈ c.leaves, ∀ t s e, (b'.execute t a s).1 = .error e → e.isCancelled = false) →
    ∀ s, r.runAll g b (cs.filter (·.module == n)) (π s) =
      (((r.runAll g' b' cs s).1.1.filter (·.module == n), false), π (r.runAll g' b' cs s).2)
  | [], _, _, _, _ => rfl
  | c :: cs, own, others, uncancelled, s => by
    have looked := signals.isCancelled .cycle s
    have uncut := live.isCancelled .cycle s
    have still := keeps.isCancelled .cycle s
    rw [runAll]
    cases look : g'.isCancelled .cycle s with
    | mk cancelled s₁ =>
      rw [look] at looked uncut still
      have none : cancelled = false := uncut
      subst none
      have alike : g.isCancelled .cycle (π s) = (false, π s) := by
        rw [← looked, ← still]
        rfl
      have through := r.attempt_through (g := g') b' live.wait
        (c.execute_error (uncancelled c List.mem_cons_self) .cycle) (r.attempts.toNat - 1) 1 s₁
      have later := runAll_alone signals keeps live cs
        (fun c' hc' => own c' (List.mem_cons_of_mem _ hc'))
        (fun c' hc' => others c' (List.mem_cons_of_mem _ hc'))
        (fun c' hc' => uncancelled c' (List.mem_cons_of_mem _ hc'))
      dsimp only
      cases ended : r.runCommand g' b' c s₁ with
      | mk outcome s₂ =>
        obtain ⟨verdict, interrupted⟩ := outcome
        rw [runCommand] at ended
        rw [ended] at through
        have uninterrupted : interrupted = false := through
        subst uninterrupted
        by_cases named : c.module = n
        · -- a command of the module does the same alone
          have same := r.runCommand_over signals c (own c List.mem_cons_self named) s₁
          rw [runCommand, ended, still] at same
          have first : r.runCommand g b c (π s) = ((verdict, false), π s₂) := same.symm
          rw [List.filter_cons_of_pos (by simpa using named), runAll, alike]
          simp only [first, later s₂, Bool.false_eq_true, if_false]
          rw [List.filter_cons_of_pos (by simpa using named)]
        · -- a command of another module leaves the part alone
          have moved := attempt_moves (r := r) keeps.wait (others c List.mem_cons_self named)
            (r.attempts.toNat - 1) 1 s₁
          rw [ended] at moved
          have unmoved : π s₂ = π s := moved.trans still
          rw [List.filter_cons_of_neg (by simpa using named), ← unmoved, later s₂]
          simp only [Bool.false_eq_true, if_false]
          rw [List.filter_cons_of_neg (by simpa using named)]

end Runner

/-- The leaves of a planned command are about its module. -/
theorem Planner.planned_leaf {p : Planner} {st : StateStore σ} {desired current : ModuleSet}
    {ctx : PlanContext} {now : Instant} {s s' : σ} {plan : Plan Action}
    (planned : p.plan st desired current ctx now s = (.ok plan, s')) {c : Command Action}
    (hc : c ∈ plan.commands) {a : Action} (ha : a ∈ c.leaves) : Labelled.module a = c.module := by
  rw [(plan_ok planned).2.1] at hc
  exact p.module_of_mem_leaves st desired current ctx now s hc ha

/-! ### A module and its runtime -/

/-- What a module has had to do with the runtime: its entry, and the requests that were made for it,
each with its token. -/
structure Dealings where
  entry : Option Entry := none
  requests : List (Token × Request) := []

/-- How a runtime answers a request for a module and what it makes of the module's entry, both told
by what the two have had to do with each other. -/
abbrev Responder : Type := Dealings → Token → Request → Except Error Unit × Option Entry

namespace Responder

/-- The dealings after a request. -/
def next (respond : Responder) (t : Token) (r : Request) (d : Dealings) : Dealings :=
  ⟨(respond d t r).2, d.requests ++ [(t, r)]⟩

/-- A host on which there is one module only: its dealings and its restart state. Nobody cancels,
and the clock stands still. -/
def alone (respond : Responder) (now : Instant) : Host (Dealings × Option RestartState) where
  pause := id
  cancelled _ := false
  now _ := now
  wait _ v := (false, v)
  request t r v := ((respond v.1 t r).1, (respond.next t r v.1, v.2))
  store :=
    { get := fun _ v => (.ok v.2, v)
      update := fun k f v =>
        match v.2 with
        | some state => (.ok (f state), (v.1, some (f state)))
        | none => (.error (.store (.notFound k)), v)
      putOrUpdate := fun _ first f v => (.ok (v.2.elim first f), (v.1, some (v.2.elim first f)))
      remove := fun _ v => (.ok (), (v.1, none))
      keys := fun v => (.ok [], v) }

end Responder

/-- A host that keeps modules apart. Each module has dealings of its own with the runtime, and a
request for it is answered, and takes effect, from these alone; no answer is that the request was
cancelled. The store is one in memory, nobody cancels, and the clock stands still. -/
structure Host.Isolates (h : Host σ) (respond : String → Responder) (dealings : String → σ → Dealings)
    (states : σ → States) (now : Instant) : Prop where
  live : h.toSignals.Live
  still : ∀ s, h.now s = now
  remembers : h.Remembers states
  keeps : ∀ n, h.toSignals.Keeps (dealings n)
  answer : ∀ t r s, (h.request t r s).1 = (respond r.module (dealings r.module s) t r).1
  effect : ∀ t r s, dealings r.module (h.request t r s).2 =
    (respond r.module).next t r (dealings r.module s)
  apart : ∀ t r s n, n ≠ r.module → dealings n (h.request t r s).2 = dealings n s
  update : ∀ n k f s, dealings n (h.store.update k f s).2 = dealings n s
  putOrUpdate : ∀ n k v f s, dealings n (h.store.putOrUpdate k v f s).2 = dealings n s
  uncancelled : ∀ n d t r e, (respond n d t r).1 = .error e → e.isCancelled = false

/-- The share of a module in the state: its dealings and its restart state. -/
abbrev share (dealings : String → σ → Dealings) (states : σ → States) (n : String) (s : σ) :
    Dealings × Option RestartState :=
  (dealings n s, stateAt states n s)

namespace Host.Isolates

variable {h : Host σ} {respond : String → Responder} {dealings : String → σ → Dealings}
  {states : σ → States} {now : Instant} (isolates : h.Isolates respond dealings states now)
  {n : String}

include isolates

theorem share_keeps (n : String) : h.toSignals.Keeps (share dealings states n) where
  pause s := Prod.ext ((isolates.keeps n).pause s) ((isolates.remembers.state_keeps n).pause s)
  wait d s := Prod.ext ((isolates.keeps n).wait d s) ((isolates.remembers.state_keeps n).wait d s)

theorem share_signals (n : String) :
    h.toSignals.Over (share dealings states n) ((respond n).alone now).toSignals where
  pause := (isolates.share_keeps n).pause
  cancelled := isolates.live.cancelled
  now := isolates.still
  wait d s := Prod.ext (isolates.live.wait d s) ((isolates.share_keeps n).wait d s)

/-! #### The leaves of the module -/

/-- A request for the module acts on its share as if it were alone. -/
theorem request_over {r : Request} (own : r.module = n) (t : Token) :
    Step.Over (share dealings states n) (h.request t r) (((respond n).alone now).request t r) := by
  subst own
  intro s
  have state : stateAt states r.module (h.request t r s).2 = stateAt states r.module s :=
    congrArg (NameMap.get? · r.module) (isolates.remembers.request t r s)
  exact Prod.ext (isolates.answer t r s) (Prod.ext (isolates.effect t r s) state)

theorem put_over (n : String) (v : RestartState) (f : RestartState → RestartState) :
    Step.Over (share dealings states n) (h.store.putOrUpdate n v f)
      (((respond n).alone now).store.putOrUpdate n v f) := by
  intro s
  have stored := isolates.remembers.putOrUpdate n v f s
  have answer : (h.store.putOrUpdate n v f s).1 = .ok ((stateAt states n s).elim v f) := by
    have first := congrArg Prod.fst stored
    cases there : (states s).get? n <;> simpa [memoryStore, there] using first
  have state : stateAt states n (h.store.putOrUpdate n v f s).2 =
      some ((stateAt states n s).elim v f) := by
    have second := congrArg (fun x => NameMap.get? x.2 n) stored
    cases there : (states s).get? n <;>
      simpa [memoryStore, there, NameMap.get?_insert] using second
  exact Prod.ext answer (Prod.ext (isolates.putOrUpdate n n v f s) state)

theorem update_over (n : String) (f : RestartState → RestartState) :
    Step.Over (share dealings states n) (h.store.update n f)
      (((respond n).alone now).store.update n f) := by
  intro s
  have stored := isolates.remembers.update n f s
  have kept := isolates.update n n f s
  have answer := congrArg Prod.fst stored
  have state := congrArg (fun x => NameMap.get? x.2 n) stored
  cases there : (states s).get? n with
  | none =>
    simp only [Prod.map_fst, Prod.map_snd, id, memoryStore, there] at answer state
    simp only [Responder.alone, stateAt, there]
    exact Prod.ext answer (Prod.ext kept (state.trans there.symm))
  | some old =>
    simp only [Prod.map_fst, Prod.map_snd, id, memoryStore, there, NameMap.get?_insert,
      if_true] at answer state
    simp only [Responder.alone, stateAt, there]
    exact Prod.ext answer (Prod.ext kept state)

/-- A leaf about the module acts on its share as if it were alone. -/
theorem leaf_over {a : Action} (own : Labelled.module a = n) :
    (Action.behaviour h).OverAt (share dealings states n)
      (Action.behaviour ((respond n).alone now)) a := by
  refine Host.Over.leaf (isolates.share_signals n) (fun r asked t => ?_) (fun name e => ?_)
    fun name e => ?_
  · exact isolates.request_over ((Action.module_of_asked asked).trans own) t
  · subst e
    obtain rfl : name = n := own
    exact Host.Over.record (isolates.share_signals name) (isolates.put_over name)
  · subst e
    obtain rfl : name = n := own
    exact Host.Over.reset (isolates.update_over name)

/-! #### The leaves of other modules -/

/-- A leaf about another module leaves the share alone. -/
theorem leaf_apart {a : Action} (other : Labelled.module a ≠ n) :
    (Action.behaviour h).Moves (fun s s' => share dealings states n s' = share dealings states n s)
      a := by
  refine Action.moves (isolates.share_keeps n).pause (fun r asked t s => ?_) (fun name e s => ?_)
    fun name e s => ?_
  · have foreign : n ≠ r.module := fun same =>
      other ((Action.module_of_asked asked).symm.trans same.symm)
    have state : stateAt states n (h.request t r s).2 = stateAt states n s :=
      congrArg (NameMap.get? · n) (isolates.remembers.request t r s)
    exact Prod.ext (isolates.apart t r s n foreign) state
  · subst e
    have foreign : n ≠ name := fun same => other same.symm
    have state : stateAt states n (Action.record h name s).2 = stateAt states n s := by
      rw [stateAt, (isolates.remembers.record name s).2, NameMap.get?_insert, if_neg foreign]
    have kept : dealings n (Action.record h name s).2 = dealings n s := by
      rw [Action.snd_record, isolates.putOrUpdate]
    exact Prod.ext kept state
  · subst e
    have foreign : n ≠ name := fun same => other same.symm
    have state : stateAt states n (Action.reset h name s).2 = stateAt states n s := by
      rw [stateAt, (isolates.remembers.reset name s).2, NameMap.get?_modify, if_neg foreign]
    have kept : dealings n (Action.reset h name s).2 = dealings n s := by
      rw [Action.snd_reset, isolates.update]
    exact Prod.ext kept state

/-- No leaf fails by cancellation. -/
theorem leaf_uncancelled (a : Action) (t : Token) (s : σ) (e : Error)
    (failed : ((Action.behaviour h).execute t a s).1 = .error e) : e.isCancelled = false := by
  refine isolates.remembers.leaf_uncancelled isolates.live (fun t r s e failed => ?_) a t s e failed
  rw [isolates.answer] at failed
  exact isolates.uncancelled _ _ _ _ _ failed

/-! #### Runs -/

section

variable {p : Planner} {r : Runner} {σ₀ : Type} {st : StateStore σ₀} {desired current : ModuleSet}
  {ctx : PlanContext} {time : Instant} {s₀ s₀' : σ₀} {plan : Plan Action}
  {s s' : σ} {result : CycleResult}
  (ran : r.run h.toSignals (Action.behaviour h) plan s = (result, s'))

include ran

/-- What a run does for a module is what a run of the module's commands does that is alone. -/
theorem run_alone (planned : p.plan st desired current ctx time s₀ = (.ok plan, s₀'))
    (n : String) :
    r.runAll ((respond n).alone now).toSignals (Action.behaviour ((respond n).alone now))
        (plan.commands.filter (·.module == n)) (share dealings states n s) =
      ((result.outcomesFor n, false), share dealings states n s') := by
  have alone := r.runAll_alone (n := n) (isolates.share_signals n) (isolates.share_keeps n)
    isolates.live plan.commands
    (fun c hc own a ha => isolates.leaf_over ((Planner.planned_leaf planned hc ha).trans own))
    (fun c hc other a ha => isolates.leaf_apart fun own =>
      other ((Planner.planned_leaf planned hc ha).symm.trans own))
    (fun _ _ a _ => isolates.leaf_uncancelled a) s
  cases ran
  exact alone

/-- Every command of the plan has its outcome. -/
theorem run_through : result.cancelled = false ∧
    result.outcomes.map Outcome.label = plan.labels :=
  r.goes_through _ isolates.live (fun _ _ a _ => isolates.leaf_uncancelled a) ran

end

omit isolates in
/-- **Modules are isolated from each other.** Let a plan be run on two hosts whose runtimes treat
every module but `m` alike, and where every other module has had the same dealings with the runtime
and all restart states are the same. Then both runs have an outcome for every command of the plan,
and for every other module the outcomes, the requests, the entry and the restart state are the same
in both. -/
theorem outcomes_isolated {h₁ : Host σ} {h₂ : Host τ} {respond₁ respond₂ : String → Responder}
    {dealings₁ : String → σ → Dealings} {dealings₂ : String → τ → Dealings} {states₁ : σ → States}
    {states₂ : τ → States} {now : Instant} {m : String} {p : Planner} {r : Runner} {σ₀ : Type}
    {st : StateStore σ₀} {desired current : ModuleSet} {ctx : PlanContext} {time : Instant}
    {s₀ s₀' : σ₀} {plan : Plan Action} {s₁ s₁' : σ} {s₂ s₂' : τ} {result₁ result₂ : CycleResult}
    (isolates₁ : h₁.Isolates respond₁ dealings₁ states₁ now)
    (isolates₂ : h₂.Isolates respond₂ dealings₂ states₂ now)
    (alike : ∀ n, n ≠ m → respond₁ n = respond₂ n)
    (same : ∀ n, n ≠ m → dealings₁ n s₁ = dealings₂ n s₂) (stored : states₁ s₁ = states₂ s₂)
    (planned : p.plan st desired current ctx time s₀ = (.ok plan, s₀'))
    (ran₁ : r.run h₁.toSignals (Action.behaviour h₁) plan s₁ = (result₁, s₁'))
    (ran₂ : r.run h₂.toSignals (Action.behaviour h₂) plan s₂ = (result₂, s₂')) :
    (∀ n, n ≠ m → result₁.outcomesFor n = result₂.outcomesFor n ∧
      (dealings₁ n s₁').requests = (dealings₂ n s₂').requests ∧
      (dealings₁ n s₁').entry = (dealings₂ n s₂').entry ∧
      (states₁ s₁').get? n = (states₂ s₂').get? n) ∧
    result₁.outcomes.map Outcome.label = plan.labels ∧
    result₂.outcomes.map Outcome.label = plan.labels := by
  refine ⟨fun n other => ?_, (isolates₁.run_through ran₁).2,
    (isolates₂.run_through ran₂).2⟩
  have alone₁ := isolates₁.run_alone ran₁ planned n
  have alone₂ := isolates₂.run_alone ran₂ planned n
  have start : share dealings₁ states₁ n s₁ = share dealings₂ states₂ n s₂ :=
    Prod.ext (same n other) (congrArg (NameMap.get? · n) stored)
  rw [alike n other, start, alone₂] at alone₁
  obtain ⟨outcomes, shares⟩ := Prod.mk.inj alone₁
  obtain ⟨dealt, state⟩ := Prod.mk.inj shares
  exact ⟨(congrArg Prod.fst outcomes).symm, by rw [dealt], by rw [dealt], state.symm⟩

end Host.Isolates

/-! ### Hosts that keep modules apart -/

/-- The host on which each module has a runtime of its own. -/
def Host.ofResponders (respond : String → Responder) (now : Instant) :
    Host ((String → Dealings) × States) where
  pause := id
  cancelled _ := false
  now _ := now
  wait _ s := (false, s)
  request t r s :=
    let answer := (respond r.module (s.1 r.module) t r).1
    (answer, Function.update s.1 r.module ((respond r.module).next t r (s.1 r.module)), s.2)
  store := memoryStore.through Prod.snd fun states s => (s.1, states)

/-- Such a host keeps modules apart, whatever the runtimes are that do not cancel. -/
theorem Host.isolates_ofResponders {respond : String → Responder} {now : Instant}
    (uncancelled : ∀ n d t r e, (respond n d t r).1 = .error e → e.isCancelled = false) :
    (Host.ofResponders respond now).Isolates respond (fun n s => s.1 n) Prod.snd now where
  live := ⟨fun _ => rfl, fun _ _ => rfl⟩
  still _ := rfl
  remembers :=
    { keeps := ⟨fun _ => rfl, fun _ _ => rfl⟩
      request := fun _ _ _ => rfl
      get := fun _ _ => rfl
      update := fun _ _ _ => rfl
      putOrUpdate := fun _ _ _ _ => rfl }
  keeps _ := ⟨fun _ => rfl, fun _ _ => rfl⟩
  answer _ _ _ := rfl
  effect _ _ _ := Function.update_self ..
  apart _ _ _ _ other := Function.update_of_ne other ..
  update _ _ _ _ := rfl
  putOrUpdate _ _ _ _ _ := rfl
  uncancelled := uncancelled

/-! A sample: in one of two runs the new `b` is never started. -/

namespace Planner.Sample

/-- A runtime that carries out every request. -/
def willing : Responder := fun d _ r => (.ok (), r.onEntry .epoch d.entry)

/-- A runtime that starts nothing. -/
def unwilling : Responder := fun d t r =>
  match r with
  | .start name => (.error (.command (.failed "start" name "no space")), d.entry)
  | r => willing d t r

/-- The runtimes of the second run. -/
def oneUnwilling (n : String) : Responder := if n = "b" then unwilling else willing

/-- The dealings with the modules that are there. -/
def dealt (n : String) : Dealings := { entry := there.table.get? n }

theorem willing_uncancelled (d : Dealings) (t : Token) (r : Request) (e : Error)
    (failed : (willing d t r).1 = .error e) : e.isCancelled = false := by
  cases failed

theorem unwilling_uncancelled (d : Dealings) (t : Token) (r : Request) (e : Error)
    (failed : (unwilling d t r).1 = .error e) : e.isCancelled = false := by
  cases r <;> cases failed
  rfl

theorem oneUnwilling_uncancelled (n : String) (d : Dealings) (t : Token) (r : Request) (e : Error)
    (failed : (oneUnwilling n d t r).1 = .error e) : e.isCancelled = false := by
  unfold oneUnwilling at failed
  split at failed
  · exact unwilling_uncancelled d t r e failed
  · exact willing_uncancelled d t r e failed

end Planner.Sample

open Planner in
theorem outcomes_isolated_sample :
    ∃ plan s' result₁ s₁ result₂ s₂,
      Sample.planner.plan memoryStore Sample.wanted Sample.there {} .epoch ∅ = (.ok plan, s') ∧
      ({} : Runner).run (Host.ofResponders (fun _ => Sample.willing) .epoch).toSignals
        (Action.behaviour (Host.ofResponders (fun _ => Sample.willing) .epoch)) plan
        (Sample.dealt, ∅) = (result₁, s₁) ∧
      ({} : Runner).run (Host.ofResponders Sample.oneUnwilling .epoch).toSignals
        (Action.behaviour (Host.ofResponders Sample.oneUnwilling .epoch)) plan
        (Sample.dealt, ∅) = (result₂, s₂) ∧
      (∀ n, n ≠ "b" → result₁.outcomesFor n = result₂.outcomesFor n ∧
        (s₁.1 n).requests = (s₂.1 n).requests ∧ (s₁.1 n).entry = (s₂.1 n).entry ∧
        s₁.2.get? n = s₂.2.get? n) ∧
      result₁.outcomes.map Outcome.label = plan.labels ∧
      result₂.outcomes.map Outcome.label = plan.labels := by
  have planned := Sample.planner.plan_eq memoryStore Sample.wanted Sample.there {} .epoch ∅
    (by decide)
  have isolates₁ : (Host.ofResponders (fun _ => Sample.willing) .epoch).Isolates _ _ _ _ :=
    Host.isolates_ofResponders fun _ => Sample.willing_uncancelled
  have isolates₂ : (Host.ofResponders Sample.oneUnwilling .epoch).Isolates _ _ _ _ :=
    Host.isolates_ofResponders Sample.oneUnwilling_uncancelled
  have alike : ∀ n, n ≠ "b" → Sample.willing = Sample.oneUnwilling n := by
    intro n other
    rw [Sample.oneUnwilling, if_neg other]
  exact ⟨_, _, _, _, _, _, planned, rfl, rfl, Host.Isolates.outcomes_isolated isolates₁ isolates₂
    alike (fun _ _ => rfl) rfl planned rfl rfl⟩

end Steward
