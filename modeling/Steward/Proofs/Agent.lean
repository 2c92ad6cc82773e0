/-
# What a cycle of the agent does

A cycle that fails has done nothing: it asked for the desired modules, looked at those that are
there if it got so far, and left everything else alone. Its error tells what it failed at
(`Failed`). A cycle that has a plan never fails, whatever becomes of the commands, of the report and
of the look after them (`Acted`): without commands it reports what it saw, with some what it sees
afterwards, if it sees anything (`Agent.reconcile_all_or_nothing`).

The agent is watched: whatever it asks, looks at, reports or calls is listed in order, which has no
influence on the cycle (`Agent.watched`). Planning adds questions to the store to the list and a run
adds calls; a list of what was done grows at its end only (`Grows`), so these lists are put together
from those of the steps.

Key definitions: `Deed`, `Agent.watched`, `Grows`, `Failed`, `Acted`.
Key theorems: `Agent.plan_watched`, `Agent.run_watched`, `Agent.act_watched`,
`Agent.reconcile_all_or_nothing`.
-/
import Steward.Agent
import Steward.Proofs.Cycle.Log
import Steward.Proofs.Device.Steady

namespace Steward

variable {σ β : Type}

/-! ### Watching an agent -/

/-- What an agent does in a cycle. -/
inductive Deed where
  | asked
  | looked
  | reported (ms : ModuleSet)
  /-- A call to the runtime or the store. -/
  | contact (c : Contact)

/-- A step that is put at the end of the list of what was done. -/
def Step.noting (d : Deed) (step : Step σ β) : Step (σ × List Deed) β := fun x =>
  let (answer, s) := step x.1
  (answer, (s, x.2 ++ [d]))

theorem Step.noting_eq {d : Deed} {step : Step σ β} {s s' : σ} {answer : Except Error β}
    {past : List Deed} (e : step s = (answer, s')) :
    step.noting d (s, past) = (answer, (s', past ++ [d])) := by
  rw [noting, e]

namespace Agent

/-- The agent with a list of all that it does. -/
def watched (a : Agent σ) : Agent (σ × List Deed) where
  host :=
    { pause := fun x => (a.host.pause x.1, x.2)
      cancelled := fun x => a.host.cancelled x.1
      now := fun x => a.host.now x.1
      wait := fun d x => ((a.host.wait d x.1).1, ((a.host.wait d x.1).2, x.2))
      request := fun t r => (a.host.request t r).noting (.contact (.request t r))
      store :=
        { get := fun n => (a.host.store.get n).noting (.contact (.get n))
          update := fun n f => (a.host.store.update n f).noting (.contact (.update n))
          putOrUpdate := fun n v f => (a.host.store.putOrUpdate n v f).noting (.contact (.put n))
          remove := fun n => (a.host.store.remove n).noting (.contact (.remove n))
          keys := a.host.store.keys.noting (.contact .keys) } }
  source := ⟨a.source.desired.noting .asked⟩
  environment := ⟨fun t => (a.environment.modules t).noting .looked⟩
  reporter := ⟨fun ms => (a.reporter.report ms).noting (.reported ms)⟩
  planner := a.planner
  runner := a.runner

variable (a : Agent σ)

theorem watched_over : a.watched.host.Over Prod.fst a.host where
  signals := ⟨fun _ => rfl, fun _ => rfl, fun _ => rfl, fun _ _ => rfl⟩
  request _ _ _ := rfl
  update _ _ _ := rfl
  putOrUpdate _ _ _ _ := rfl

end Agent

/-- The list of what was done grows at its end, by deeds of some kind. -/
def Grows (P : Deed → Prop) (x x' : σ × List Deed) : Prop :=
  ∃ deeds, x'.2 = x.2 ++ deeds ∧ ∀ d ∈ deeds, P d

namespace Grows

variable {P : Deed → Prop}

instance : IsPreorder (σ × List Deed) (Grows P) where
  refl x := ⟨[], (List.append_nil x.2).symm, fun _ h => nomatch h⟩
  trans := by
    rintro x y z ⟨first, grown, these⟩ ⟨later, grown', those⟩
    refine ⟨first ++ later, by rw [grown', grown, List.append_assoc], fun d hd => ?_⟩
    rcases List.mem_append.1 hd with hd | hd
    · exact these d hd
    · exact those d hd

theorem same {x x' : σ × List Deed} (e : x'.2 = x.2) : Grows P x x' :=
  ⟨[], by rw [e, List.append_nil], fun _ h => nomatch h⟩

theorem noting {d : Deed} (allowed : P d) (step : Step σ β) (x : σ × List Deed) :
    Grows P x (step.noting d x).2 := by
  refine ⟨[d], rfl, fun d' hd => ?_⟩
  rw [List.mem_singleton.1 hd]
  exact allowed

end Grows

/-- A question to the store. -/
def Deed.IsQuestion (d : Deed) : Prop := ∃ n, d = .contact (.get n)

/-- A call to the runtime or the store. -/
def Deed.IsCall (d : Deed) : Prop := ∃ c, d = .contact c

/-! ### Planning and running -/

namespace Planner

variable {p : Planner} {st : StateStore σ} {desired current : ModuleSet} {ctx : PlanContext}
  {now : Instant} {s s' : σ}

/-- If the desired modules are at fault the store is not asked. -/
theorem plan_refused {f : PlanFault} (refused : p.validate desired ctx = .error f) :
    p.plan st desired current ctx now s = (.error (.plan f), s) := by
  simp only [plan, refused]

theorem refused_of_plan_error {e : Error}
    (failed : p.plan st desired current ctx now s = (.error e, s')) :
    ∃ f, p.validate desired ctx = .error f ∧ e = .plan f ∧ s' = s := by
  cases valid : p.validate desired ctx with
  | ok =>
    rw [p.plan_eq st desired current ctx now s valid] at failed
    cases failed
  | error f =>
    rw [plan_refused valid] at failed
    cases failed
    exact ⟨f, rfl, rfl, rfl⟩

end Planner

namespace Agent

variable (a : Agent σ)

/-- To plan is to ask the store. -/
theorem plan_watched {desired current : ModuleSet} {ctx : PlanContext} {now : Instant} {s s' : σ}
    {plan : Plan Action} (past : List Deed)
    (planned : a.planner.plan a.host.store desired current ctx now s = (.ok plan, s')) :
    ∃ questions, a.planner.plan a.watched.host.store desired current ctx now (s, past) =
      (.ok plan, (s', past ++ questions)) ∧ ∀ d ∈ questions, d.IsQuestion := by
  have told : ∀ n, Step.Over Prod.fst (a.watched.host.store.get n) (a.host.store.get n) :=
    fun _ _ => rfl
  have below := a.planner.plan_over (P := fun _ => True) now (fun _ _ _ => trivial)
    (fun n x _ => StateStore.history_over (told n) x) desired current ctx (x := (s, past)) trivial
  rw [planned] at below
  cases watched : a.planner.plan a.watched.host.store desired current ctx now (s, past) with
  | mk answer x' =>
    rw [watched] at below
    obtain ⟨rfl, rfl⟩ := Prod.mk.inj below
    have asked : ∀ n x, Grows Deed.IsQuestion x (a.watched.host.store.get n x).2 := fun n x =>
      Grows.noting ⟨n, rfl⟩ (a.host.store.get n) x
    obtain ⟨questions, grown, kind⟩ := Planner.policyCommands_moves asked a.planner now
      (Planner.settled desired current (desired.diff current)) (s, past)
    rw [← (Planner.plan_ok watched).2.2] at grown
    exact ⟨questions, Prod.ext rfl (Prod.ext rfl grown), kind⟩

/-- Whatever a leaf does, it does by calls. -/
theorem leaf_watched (b : Action) :
    (Action.behaviour a.watched.host).Moves (Grows Deed.IsCall) b := by
  refine Action.moves (fun x => .same rfl) (fun r _ t x => ?_) (fun name _ x => ?_)
    fun name _ x => ?_
  · exact Grows.noting ⟨_, rfl⟩ (a.host.request t r) x
  · rw [Action.snd_record]
    exact Grows.noting ⟨_, rfl⟩ (a.host.store.putOrUpdate name _ _) x
  · rw [Action.snd_reset]
    exact Grows.noting ⟨_, rfl⟩ (a.host.store.update name .reset) x

/-- To run a plan is to make calls. -/
theorem run_watched (plan : Plan Action) (s : σ) (past : List Deed) :
    ∃ calls, a.watched.run plan (s, past) =
      ((a.run plan s).1, ((a.run plan s).2, past ++ calls)) ∧ ∀ d ∈ calls, d.IsCall := by
  have below := a.runner.run_over a.watched_over.signals a.watched_over.behaviour plan (s, past)
  cases ran : a.watched.run plan (s, past) with
  | mk result x' =>
    have same : Prod.map id Prod.fst (a.watched.run plan (s, past)) = a.run plan s := below
    rw [ran] at same
    obtain ⟨calls, grown, kind⟩ := Runner.run_moves (R := Grows Deed.IsCall) (fun x => .same rfl)
      (fun _ _ => .same rfl) (fun c _ b _ => a.leaf_watched b) ran
    rw [← same]
    exact ⟨calls, Prod.ext rfl (Prod.ext rfl grown), kind⟩

end Agent

/-! ### Acting on a plan -/

/-- What comes of a plan: the result, the state afterwards, and what was done. -/
inductive Acted (a : Agent σ) (there : ModuleSet) (plan : Plan Action) (s : σ) :
    CycleResult → σ → List Deed → Prop
  /-- Without commands one report is made, of what is there. -/
  | idle : plan.isEmpty = true →
    Acted a there plan s (.idle (a.host.now (a.tell there s))) (a.tell there s) [.reported there]
  /-- With commands a second look is taken after the run, and what was seen is reported. -/
  | reported {calls : List Deed} {result : CycleResult} {ms : ModuleSet} {s₁ s₂ : σ} :
    plan.isEmpty = false → a.run plan s = (result, s₁) → (∀ d ∈ calls, d.IsCall) →
    a.environment.modules .cycle s₁ = (.ok ms, s₂) →
    Acted a there plan s result (a.tell ms s₂) (calls ++ [.looked, .reported ms])
  /-- If the second look fails, nothing is reported. -/
  | unreported {calls : List Deed} {result : CycleResult} {e : Error} {s₁ s₂ : σ} :
    plan.isEmpty = false → a.run plan s = (result, s₁) → (∀ d ∈ calls, d.IsCall) →
    a.environment.modules .cycle s₁ = (.error e, s₂) →
    Acted a there plan s result s₂ (calls ++ [.looked])

namespace Agent

variable (a : Agent σ)

theorem tell_watched (ms : ModuleSet) (s : σ) (past : List Deed) :
    a.watched.tell ms (s, past) = (a.tell ms s, past ++ [.reported ms]) := rfl

theorem act_watched (there : ModuleSet) (plan : Plan Action) (s : σ) (past : List Deed) :
    ∃ deeds, a.watched.act there plan (s, past) =
      ((a.act there plan s).1, ((a.act there plan s).2, past ++ deeds)) ∧
      Acted a there plan s (a.act there plan s).1 (a.act there plan s).2 deeds := by
  unfold act
  by_cases none : plan.isEmpty = true
  · simp only [none, if_true, tell_watched]
    exact ⟨[.reported there], rfl, .idle none⟩
  · simp only [none, if_false, Bool.false_eq_true]
    have some : plan.isEmpty = false := by simpa using none
    obtain ⟨calls, ran, kind⟩ := a.run_watched plan s past
    rw [ran]
    cases ended : a.run plan s with
    | mk result s₁ =>
      dsimp only
      cases looked : a.environment.modules .cycle s₁ with
      | mk answer s₂ =>
        have again : a.watched.environment.modules .cycle (s₁, past ++ calls) =
            (answer, (s₂, past ++ calls ++ [.looked])) := Step.noting_eq looked
        rw [again]
        cases answer with
        | ok ms =>
          refine ⟨calls ++ [.looked, .reported ms], ?_, .reported some ended kind looked⟩
          simp only [tell_watched, List.append_assoc, List.cons_append, List.nil_append]
        | error e =>
          refine ⟨calls ++ [.looked], ?_, .unreported some ended kind looked⟩
          simp only [List.append_assoc]

/-! ### Cycles -/

section

variable {a : Agent σ} {s s₁ s₂ s₃ : σ} {d : DesiredState} {there : ModuleSet} {e : Error}

theorem reconcile_unasked (asked : a.source.desired s = (.error e, s₁)) :
    a.reconcile s = (.error (sourceError e), s₁) := by
  simp only [reconcile, asked]

theorem reconcile_unseen (asked : a.source.desired s = (.ok d, s₁))
    (looked : a.environment.modules .cycle s₁ = (.error e, s₂)) :
    a.reconcile s = (.error (environmentError e), s₂) := by
  simp only [reconcile, asked, current, looked]

theorem reconcile_unplanned (asked : a.source.desired s = (.ok d, s₁))
    (looked : a.environment.modules .cycle s₁ = (.ok there, s₂))
    (unplanned : a.planner.plan a.host.store d.modules there d.context (a.host.now s₂) s₂ =
      (.error e, s₃)) : a.reconcile s = (.error e, s₃) := by
  simp only [reconcile, asked, current, looked, unplanned]

theorem reconcile_planned {plan : Plan Action} (asked : a.source.desired s = (.ok d, s₁))
    (looked : a.environment.modules .cycle s₁ = (.ok there, s₂))
    (planned : a.planner.plan a.host.store d.modules there d.context (a.host.now s₂) s₂ =
      (.ok plan, s₃)) :
    a.reconcile s = (.ok (a.act there plan s₃).1, (a.act there plan s₃).2) := by
  simp only [reconcile, asked, current, looked, planned]

end

end Agent

/-- Whether an error is about the source of modules, or what is there. -/
def Error.ofSource : Error → Bool
  | source _ => true
  | _ => false

/-- Whether an error is about a list of modules. -/
def Error.ofModules : Error → Bool
  | module _ => true
  | _ => false

/-- What a cycle failed at: the error, the state afterwards, and what was done. -/
inductive Failed (a : Agent σ) (s : σ) : Error → σ → List Deed → Prop
  /-- The desired modules are not known, and what is there was not looked at. -/
  | source {cause : Error} {s₁ : σ} : a.source.desired s = (.error cause, s₁) →
    Failed a s
      (if cause.ofSource || cause.ofModules then cause
        else .source (.configUnavailable cause.message)) s₁ [.asked]
  /-- It is not known what is there. -/
  | environment {d : DesiredState} {cause : Error} {s₁ s₂ : σ} :
    a.source.desired s = (.ok d, s₁) → a.environment.modules .cycle s₁ = (.error cause, s₂) →
    Failed a s
      (if cause.ofSource then cause else .source (.environmentUnavailable cause.message)) s₂
      [.asked, .looked]
  /-- Nothing can be planned. -/
  | plan {d : DesiredState} {there : ModuleSet} {fault : PlanFault} {s₁ s₂ : σ} :
    a.source.desired s = (.ok d, s₁) → a.environment.modules .cycle s₁ = (.ok there, s₂) →
    a.planner.plan a.host.store d.modules there d.context (a.host.now s₂) s₂ =
      (.error (.plan fault), s₂) →
    Failed a s (.plan fault) s₂ [.asked, .looked]

/-- Who failed had no plan. -/
theorem Failed.not_planned {a : Agent σ} {s s' s₁ s₂ s₃ : σ} {e : Error} {deeds : List Deed}
    {d : DesiredState} {there : ModuleSet} {plan : Plan Action} (failed : Failed a s e s' deeds)
    (asked : a.source.desired s = (.ok d, s₁))
    (looked : a.environment.modules .cycle s₁ = (.ok there, s₂)) :
    a.planner.plan a.host.store d.modules there d.context (a.host.now s₂) s₂ ≠ (.ok plan, s₃) := by
  intro planned
  cases failed with
  | source unknown =>
    rw [asked] at unknown
    cases unknown
  | environment known unseen =>
    rw [asked] at known
    cases known
    rw [looked] at unseen
    cases unseen
  | plan known seen unplanned =>
    rw [asked] at known
    cases known
    rw [looked] at seen
    cases seen
    rw [planned] at unplanned
    cases unplanned

namespace Agent

theorem sourceError_eq (cause : Error) : sourceError cause =
    if cause.ofSource || cause.ofModules then cause
    else .source (.configUnavailable cause.message) := by
  cases cause <;> rfl

theorem environmentError_eq (cause : Error) : environmentError cause =
    if cause.ofSource then cause else .source (.environmentUnavailable cause.message) := by
  cases cause <;> rfl

/-- A cycle fails, or it acts on a plan; it is watched without any influence on it. -/
theorem reconcile_cases (a : Agent σ) (s : σ) :
    (∃ e s' deeds, a.watched.reconcile (s, []) = (.error e, (s', deeds)) ∧
      a.reconcile s = (.error e, s') ∧ Failed a s e s' deeds) ∨
    ∃ d s₁ there s₂ plan s₃ result s' questions acted,
      a.source.desired s = (.ok d, s₁) ∧ a.environment.modules .cycle s₁ = (.ok there, s₂) ∧
      a.planner.plan a.host.store d.modules there d.context (a.host.now s₂) s₂ = (.ok plan, s₃) ∧
      a.watched.reconcile (s, []) =
        (.ok result, (s', [.asked, .looked] ++ questions ++ acted)) ∧
      a.reconcile s = (.ok result, s') ∧ (∀ d ∈ questions, d.IsQuestion) ∧
      Acted a there plan s₃ result s' acted := by
  cases asked : a.source.desired s with
  | mk known s₁ =>
    have asked' : a.watched.source.desired (s, []) = (known, (s₁, [.asked])) :=
      Step.noting_eq asked
    cases known with
    | error cause =>
      refine .inl ⟨_, _, _, reconcile_unasked asked', reconcile_unasked asked, ?_⟩
      rw [sourceError_eq]
      exact .source asked
    | ok d =>
      cases looked : a.environment.modules .cycle s₁ with
      | mk seen s₂ =>
        have looked' : a.watched.environment.modules .cycle (s₁, [.asked]) =
            (seen, (s₂, [.asked, .looked])) := Step.noting_eq looked
        cases seen with
        | error cause =>
          refine .inl ⟨_, _, _, reconcile_unseen asked' looked', reconcile_unseen asked looked, ?_⟩
          rw [environmentError_eq]
          exact .environment asked looked
        | ok there =>
          cases planned : a.planner.plan a.host.store d.modules there d.context (a.host.now s₂)
              s₂ with
          | mk answered s₃ =>
            cases answered with
            | error e =>
              obtain ⟨fault, refused, rfl, rfl⟩ := Planner.refused_of_plan_error planned
              have refused' : a.watched.planner.validate d.modules d.context = .error fault :=
                refused
              exact .inl ⟨_, _, _,
                reconcile_unplanned asked' looked' (Planner.plan_refused refused'),
                reconcile_unplanned asked looked planned, .plan asked looked planned⟩
            | ok plan =>
              obtain ⟨questions, planned', kind⟩ := a.plan_watched [.asked, .looked] planned
              obtain ⟨acted, did, course⟩ :=
                a.act_watched there plan s₃ ([.asked, .looked] ++ questions)
              have watched := reconcile_planned asked' looked' planned'
              rw [did] at watched
              exact .inr ⟨d, s₁, there, s₂, plan, s₃, _, _, questions, acted, rfl, looked, planned,
                watched, reconcile_planned asked looked planned, kind, course⟩

/-- **A cycle fails with nothing done, or it does not fail.** A watched cycle is the cycle that
takes place without. If it fails, nothing was asked of the runtime, the store was not touched and
nothing was reported, and the error is that of the source, of the look at what is there or of the
planner. If the desired modules are known, and what is there, and there is a plan, it does not fail:
after the questions to the store it acts on the plan, whatever comes of that. -/
theorem reconcile_all_or_nothing {a : Agent σ} {s s' : σ} {answer : Except Error CycleResult}
    {deeds : List Deed} (ran : a.watched.reconcile (s, []) = (answer, (s', deeds))) :
    a.reconcile s = (answer, s') ∧
    (∀ e, answer = .error e → Failed a s e s' deeds) ∧
    ∀ d s₁ there s₂ plan s₃, a.source.desired s = (.ok d, s₁) →
      a.environment.modules .cycle s₁ = (.ok there, s₂) →
      a.planner.plan a.host.store d.modules there d.context (a.host.now s₂) s₂ = (.ok plan, s₃) →
      ∃ result questions acted, answer = .ok result ∧
        deeds = [.asked, .looked] ++ questions ++ acted ∧ (∀ d ∈ questions, d.IsQuestion) ∧
        Acted a there plan s₃ result s' acted := by
  rcases reconcile_cases a s with ⟨e, s'', deeds', watched, unwatched, failed⟩ |
    ⟨d, s₁, there, s₂, plan, s₃, result, s'', questions, acted, asked, looked, planned, watched,
      unwatched, kind, course⟩
  · rw [watched] at ran
    cases ran
    refine ⟨unwatched, ?_, ?_⟩
    · rintro e ⟨⟩
      exact failed
    · intro d s₁ there s₂ plan s₃ asked looked planned
      exact absurd planned (failed.not_planned asked looked)
  · rw [watched] at ran
    cases ran
    refine ⟨unwatched, ?_, ?_⟩
    · rintro e ⟨⟩
    · intro d' s₁' there' s₂' plan' s₃' known seen found
      rw [asked] at known
      cases known
      rw [looked] at seen
      cases seen
      rw [planned] at found
      cases found
      exact ⟨result, questions, acted, rfl, rfl, kind, course⟩

end Agent

/-! A sample: all attempts at a restart fail, and so does the look after them. -/

namespace Planner.Sample

/-- An agent whose reports fail, for the module that is there and has failed. -/
def agent : Agent Rehearsal where
  host := Rehearsal.steady later
  source := ⟨fun s => (.ok ⟨alone, {}⟩, s)⟩
  environment :=
    ⟨fun _ s => if s.waited = 0 then (.ok alone, s) else (.error (.io "gone"), s)⟩
  reporter := ⟨fun _ s => (.error (.io "no line"), s)⟩
  planner := planner

end Planner.Sample

open Planner.Sample in
theorem reconcile_all_or_nothing_sample :
    ∃ answer s' deeds, agent.watched.reconcile (stuck, []) = (answer, (s', deeds)) ∧
      agent.reconcile stuck = (answer, s') ∧ ∃ result questions calls, answer = .ok result ∧
        deeds = [.asked, .looked] ++ questions ++ (calls ++ [.looked]) ∧
        (∀ d ∈ questions, d.IsQuestion) ∧ ∀ d ∈ calls, d.IsCall := by
  have planned := planner.plan_eq (Rehearsal.steady later).store alone alone {} later stuck
    (by decide)
  have asked : (planner.policyCommands (Rehearsal.steady later).store later
      (Planner.settled alone alone (alone.diff alone)) stuck).2 = stuck := rfl
  rw [blocks_alone _ _ rfl rfl, asked] at planned
  -- three attempts wait twice, and then there is nothing to be seen
  have waited : (agent.run ⟨anew⟩ stuck).2.waited ≠ 0 := by decide +kernel
  cases ran : agent.watched.reconcile (stuck, []) with
  | mk answer x =>
    obtain ⟨s', deeds⟩ := x
    obtain ⟨unwatched, -, done⟩ := Agent.reconcile_all_or_nothing ran
    obtain ⟨result, questions, acted, answered, all, kind, course⟩ :=
      done ⟨alone, {}⟩ stuck alone stuck _ _ rfl rfl planned
    refine ⟨answer, s', deeds, rfl, unwatched, result, questions, ?_⟩
    cases course with
    | idle none => cases none
    | reported _ ended _ looked =>
      rw [ended] at waited
      simp only [agent, if_neg waited] at looked
      cases looked
    | unreported _ _ calls => exact ⟨_, answered, all, kind, calls⟩

end Steward
