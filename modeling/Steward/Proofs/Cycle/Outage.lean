/-
# A store that is out of reach

The store remembers how often modules were restarted. While it is out of reach every module counts
as never restarted, and a restart that cannot be recorded is carried out all the same. So one cycle
over a store that answers to everything that it is unavailable plans the same, asks the runtime for
the same and comes to the same result as a cycle over an empty store in memory
(`outage_transparent`).

Both are compared with a runtime whose store knows nothing and remembers nothing (`Runtime.bare`).
What is planned there takes no count back, since no count is above zero, and all other leaves of a
plan do the same to the runtime over any store that does not make a record fail.

Key definitions: `Runtime`, `Runtime.withStore`, `Runtime.logged`, `StateStore.Unreachable`,
`Planner.cycle`, `Runtime.bare`.
Key theorems: `Planner.cycle_over`, `Runtime.leaf_bare`, `Runtime.cycle_bare`, `outage_transparent`.
-/
import Steward.Proofs.Cycle.Simulation
import Steward.Proofs.Device.Steady
import Steward.Proofs.Plan.Shape

namespace Steward

variable {σ τ κ : Type}

/-! ### Runtimes and stores -/

/-- A host without its store. -/
structure Runtime (τ : Type) extends Signals τ where
  request : Token → Request → Step τ Unit

namespace Runtime

/-- The host with a store that has a state of its own. -/
def withStore (w : Runtime τ) (st : StateStore κ) : Host (τ × κ) where
  pause x := (w.pause x.1, x.2)
  cancelled x := w.cancelled x.1
  now x := w.now x.1
  wait d x := ((w.wait d x.1).1, ((w.wait d x.1).2, x.2))
  request t r := (w.request t r).through Prod.fst fun s x => (s, x.2)
  store := st.through Prod.snd fun k x => (x.1, k)

/-- The runtime with the list of all requests, those of rollbacks included. -/
def logged (w : Runtime τ) : Runtime (τ × List (Token × Request)) where
  pause x := (w.pause x.1, x.2)
  cancelled x := w.cancelled x.1
  now x := w.now x.1
  wait d x := ((w.wait d x.1).1, ((w.wait d x.1).2, x.2))
  request t r x := ((w.request t r x.1).1, ((w.request t r x.1).2, x.2 ++ [(t, r)]))

end Runtime

namespace StateStore

/-- Whatever is called, the store answers that it is unavailable. -/
structure Unreachable (st : StateStore κ) : Prop where
  get : ∀ n k, ∃ m, (st.get n k).1 = .error (.store (.unavailable m))
  update : ∀ n f k, ∃ m, (st.update n f k).1 = .error (.store (.unavailable m))
  putOrUpdate : ∀ n v f k, ∃ m, (st.putOrUpdate n v f k).1 = .error (.store (.unavailable m))
  remove : ∀ n k, ∃ m, (st.remove n k).1 = .error (.store (.unavailable m))
  keys : ∀ k, ∃ m, (st.keys k).1 = .error (.store (.unavailable m))

/-- The store that knows nothing and remembers nothing. -/
def blank : StateStore σ where
  get _ s := (.ok none, s)
  update n _ s := (.error (.store (.notFound n)), s)
  putOrUpdate _ v _ s := (.ok v, s)
  remove _ s := (.ok (), s)
  keys s := (.ok [], s)

/-- Nothing that is put into the store makes a record fail. -/
def TakesRecords (st : StateStore κ) : Prop :=
  ∀ n v f k, (∃ next, (st.putOrUpdate n v f k).1 = .ok next) ∨
    ∃ m, (st.putOrUpdate n v f k).1 = .error (.store (.unavailable m))

theorem history_through (get : σ → κ) (set : κ → σ → σ) (st : StateStore κ) (n : String) (s : σ) :
    (st.through get set).history n s =
      ((st.history n (get s)).1, set (st.history n (get s)).2 s) := by
  have asked : (st.through get set).get n s =
      ((st.get n (get s)).1, set (st.get n (get s)).2 s) := rfl
  simp only [history, asked]
  cases st.get n (get s) with
  | mk answer k =>
    cases answer with
    | error => rfl
    | ok known => cases known <;> rfl

theorem told_blank (n : String) : ∀ (ks : List String) (s : σ), blank.told ks s n = .never
  | [], _ => rfl
  | k :: ks, s => by
    have unknown : blank.history k s = (.never, s) := rfl
    rw [told, unknown, told_blank n ks s, ite_self]

namespace Unreachable

variable {st : StateStore κ} (down : st.Unreachable)

include down

/-- The store tells of no module that it was restarted. -/
theorem history_eq (n : String) (k : κ) : (st.history n k).1 = .never := by
  obtain ⟨m, answer⟩ := down.get n k
  unfold history
  split
  · rename_i asked
    rw [asked] at answer
    cases answer
  · rfl
  · rfl

theorem takesRecords : st.TakesRecords := fun n v f k => .inr (down.putOrUpdate n v f k)

end Unreachable
end StateStore

/-! An empty store in memory tells of no restarts either, and it takes all records. -/

theorem history_empty (n : String) : memoryStore.history n ∅ = (.never, ∅) := rfl

theorem memoryStore_takesRecords : memoryStore.TakesRecords := fun _ _ _ _ => .inl ⟨_, rfl⟩

/-! ### Cycles -/

namespace Planner

/-- Plans, and runs the plan. -/
def cycle (p : Planner) (r : Runner) (h : Host σ) (desired current : ModuleSet) (ctx : PlanContext)
    (now : Instant) : Step σ (Plan Action × CycleResult) := fun s =>
  match p.plan h.store desired current ctx now s with
  | (.error e, s) => (.error e, s)
  | (.ok plan, s) =>
    let (result, s) := r.run h.toSignals (Action.behaviour h) plan s
    (.ok (plan, result), s)

variable (p : Planner) (r : Runner) (desired current : ModuleSet) (ctx : PlanContext)
  (now : Instant)

/-- A cycle over an extended state is the cycle of the host, if what is planned is planned there and
its leaves do to the part below what they do there. -/
theorem cycle_eq {σ' : Type} {π : σ' → σ} {h' : Host σ'} {h : Host σ}
    (signals : h'.toSignals.Over π h.toSignals) {x : σ'}
    (planned : Prod.map id π (p.plan h'.store desired current ctx now x) =
      p.plan h.store desired current ctx now (π x))
    (leaves : ∀ plan s, p.plan h.store desired current ctx now (π x) = (.ok plan, s) →
      ∀ c ∈ plan.commands, ∀ a ∈ c.leaves,
        (Action.behaviour h').OverAt π (Action.behaviour h) a) :
    Prod.map id π (p.cycle r h' desired current ctx now x) =
      p.cycle r h desired current ctx now (π x) := by
  rw [← planned] at leaves
  unfold cycle
  rw [← planned]
  cases made : p.plan h'.store desired current ctx now x with
  | mk answer x₁ =>
    cases answer with
    | error => rfl
    | ok plan =>
      have ran := r.run_over_of_leaves signals (leaves plan (π x₁) (by rw [made]; rfl)) x₁
      simp only [Prod.map, id, ← ran]

/-- If a host does to a part of its state what another one does, also when the store is asked, so
does a cycle. -/
theorem cycle_over {σ' : Type} {π : σ' → σ} {h' : Host σ'} {h : Host σ} (covers : h'.Over π h)
    (get : ∀ n, Step.Over π (h'.store.get n) (h.store.get n)) :
    Step.Over π (p.cycle r h' desired current ctx now) (p.cycle r h desired current ctx now) := by
  intro x
  have planned := p.plan_over (P := fun _ => True) now (fun _ _ _ => trivial)
    (fun n x _ => StateStore.history_over (get n) x) desired current ctx (x := x) trivial
  exact p.cycle_eq r desired current ctx now covers.signals planned
    fun _ _ _ _ _ a _ => covers.behaviour.overAt a

end Planner

/-! ### The runtime alone -/

namespace Runtime

variable (w : Runtime τ) {st : StateStore κ}

/-- The runtime with a store that knows nothing. -/
def bare : Host τ := { toSignals := w.toSignals, request := w.request, store := .blank }

theorem signals_bare (st : StateStore κ) :
    (w.withStore st).toSignals.Over Prod.fst w.bare.toSignals where
  pause _ := rfl
  cancelled _ := rfl
  now _ := rfl
  wait _ _ := rfl

/-- A restart is recorded, or the store cannot be reached; that is the same to the runtime. -/
theorem record_bare (takes : st.TakesRecords) (name : String) :
    Step.Over Prod.fst (Action.record (w.withStore st) name) (Action.record w.bare name) := by
  intro x
  have put : (w.withStore st).store.putOrUpdate name (.first (w.now x.1)) (.record (w.now x.1)) x =
      ((st.putOrUpdate name (.first (w.now x.1)) (.record (w.now x.1)) x.2).1,
        (x.1, (st.putOrUpdate name (.first (w.now x.1)) (.record (w.now x.1)) x.2).2)) := rfl
  have same : (w.withStore st).now x = w.now x.1 := rfl
  simp only [Action.record, same, put]
  rcases takes name (.first (w.now x.1)) (.record (w.now x.1)) x.2 with ⟨_, answer⟩ | ⟨_, answer⟩
  · rw [answer]
    rfl
  · rw [answer]
    rfl

/-- A leaf that takes no count back does the same to the runtime over every store that does not make
a record fail. -/
theorem leaf_bare (takes : st.TakesRecords) {a : Action} (keeps : ∀ n, a ≠ .resetRestarts n) :
    (Action.behaviour (w.withStore st)).OverAt Prod.fst (Action.behaviour w.bare) a := by
  refine Host.Over.leaf (w.signals_bare st) (fun _ _ _ _ => rfl) (fun name _ => ?_) fun name e => ?_
  · exact w.record_bare takes name
  · exact absurd e (keeps name)

/-- Without a history nothing is planned that takes a count back. -/
theorem planned_bare {p : Planner} {desired current : ModuleSet} {ctx : PlanContext}
    {now : Instant} {t t' : τ} {plan : Plan Action}
    (planned : p.plan w.bare.store desired current ctx now t = (.ok plan, t')) :
    ∀ c ∈ plan.commands, ∀ a ∈ c.leaves, ∀ n, a ≠ .resetRestarts n := by
  rintro c hc a ha n rfl
  rw [(Planner.plan_ok planned).2.1] at hc
  have task := p.task_of_mem w.bare.store desired current ctx now t hc
  have positive := (task.reset_of_mem p now ha).2
  have zero : (w.bare.store.told (Planner.keptNames desired current) t c.module).count = 0 := by
    rw [bare, StateStore.told_blank]
    rfl
  rw [zero] at positive
  exact absurd positive (by decide)

/-- A cycle over a store that tells of no restarts, and does not make a record fail, does to the
runtime what a cycle does that has no store. What the store tells may depend on its state, as long
as asking keeps it of that kind. -/
theorem cycle_bare (takes : st.TakesRecords) {P : κ → Prop}
    (stays : ∀ n k, P k → P (st.history n k).2)
    (unknown : ∀ n k, P k → (st.history n k).1 = .never)
    (p : Planner) (r : Runner) (desired current : ModuleSet) (ctx : PlanContext) (now : Instant)
    (t : τ) {k : κ} (start : P k) :
    Prod.map id Prod.fst (p.cycle r (w.withStore st) desired current ctx now (t, k)) =
      p.cycle r w.bare desired current ctx now t := by
  have asked : ∀ n x, (w.withStore st).store.history n x =
      ((st.history n x.2).1, (x.1, (st.history n x.2).2)) := fun n x =>
    StateStore.history_through Prod.snd (fun k x => (x.1, k)) st n x
  have told : ∀ n (x : τ × κ), P x.2 → Prod.map id Prod.fst ((w.withStore st).store.history n x) =
      w.bare.store.history n x.1 := by
    intro n x kind
    rw [asked, unknown n x.2 kind]
    rfl
  have planned := p.plan_over (P := fun x : τ × κ => P x.2) now
    (fun n x kind => by rw [asked]; exact stays n x.2 kind) told desired current ctx
    (x := (t, k)) start
  exact p.cycle_eq r desired current ctx now (w.signals_bare st) planned
    fun plan s made c hc a ha => w.leaf_bare takes (w.planned_bare made c hc a ha)

/-- The requests are listed without any influence on the cycle. -/
theorem cycle_logged (st : StateStore κ) (p : Planner) (r : Runner) (desired current : ModuleSet)
    (ctx : PlanContext) (now : Instant) :
    Step.Over (fun x : (τ × List (Token × Request)) × κ => (x.1.1, x.2))
      (p.cycle r (w.logged.withStore st) desired current ctx now)
      (p.cycle r (w.withStore st) desired current ctx now) := by
  refine p.cycle_over r desired current ctx now ?_ fun _ _ => rfl
  exact ⟨⟨fun _ => rfl, fun _ => rfl, fun _ => rfl, fun _ _ => rfl⟩, fun _ _ _ => rfl,
    fun _ _ _ => rfl, fun _ _ _ _ => rfl⟩

end Runtime

/-! ### An outage -/

/-- **An outage of the store is transparent for one cycle.** Over a store that is out of reach a
cycle has the same plan or planning error, and the same result with the same outcomes, attempts and
cancellation, as over an empty store in memory. The runtime is asked for the same in the same order,
and it is left in the same state. That requests are listed changes neither cycle. -/
theorem outage_transparent (w : Runtime τ) {st : StateStore κ} (down : st.Unreachable)
    (p : Planner) (r : Runner) (desired current : ModuleSet) (ctx : PlanContext) (now : Instant)
    (t : τ) (k : κ) :
    ∃ (answer : Except Error (Plan Action × CycleResult)) (t' : τ)
      (requests : List (Token × Request)) (k' : κ) (states : States),
      p.cycle r (w.withStore st) desired current ctx now (t, k) = (answer, (t', k')) ∧
      p.cycle r (w.logged.withStore st) desired current ctx now ((t, []), k) =
        (answer, ((t', requests), k')) ∧
      p.cycle r (w.withStore memoryStore) desired current ctx now (t, ∅) = (answer, (t', states)) ∧
      p.cycle r (w.logged.withStore memoryStore) desired current ctx now ((t, []), ∅) =
        (answer, ((t', requests), states)) := by
  have unreachable := w.logged.cycle_bare down.takesRecords (P := fun _ => True)
    (fun _ _ _ => trivial) (fun n k _ => down.history_eq n k) p r desired current ctx now (t, [])
    (k := k) trivial
  have empty := w.logged.cycle_bare memoryStore_takesRecords (P := (· = ∅))
    (fun n _ none => by rw [none, history_empty]) (fun n _ none => by rw [none, history_empty]) p r
    desired current ctx now (t, []) rfl
  have unlisted := w.cycle_logged st p r desired current ctx now ((t, []), k)
  have unlisted' := w.cycle_logged memoryStore p r desired current ctx now ((t, []), ∅)
  rw [← empty] at unreachable
  cases ended : p.cycle r (w.logged.withStore st) desired current ctx now ((t, []), k) with
  | mk answer x =>
    obtain ⟨⟨t', requests⟩, k'⟩ := x
    cases ended' : p.cycle r (w.logged.withStore memoryStore) desired current ctx now
        ((t, []), ∅) with
    | mk answer' x' =>
      obtain ⟨⟨t'', requests'⟩, states⟩ := x'
      rw [ended] at unreachable unlisted
      rw [ended'] at unreachable unlisted'
      cases unreachable
      exact ⟨answer, t', requests, k', states, unlisted.symm, rfl, unlisted'.symm, rfl⟩

/-! A sample: the module that cannot be restarted is tried three times, with or without a store. -/

namespace Planner.Sample

/-- A store on a disk that is not there. -/
def away : StateStore Unit where
  get _ s := (.error (.store (.unavailable "no disk")), s)
  update _ _ s := (.error (.store (.unavailable "no disk")), s)
  putOrUpdate _ _ _ s := (.error (.store (.unavailable "no disk")), s)
  remove _ s := (.error (.store (.unavailable "no disk")), s)
  keys s := (.error (.store (.unavailable "no disk")), s)

theorem away_unreachable : away.Unreachable where
  get _ _ := ⟨_, rfl⟩
  update _ _ _ := ⟨_, rfl⟩
  putOrUpdate _ _ _ _ := ⟨_, rfl⟩
  remove _ _ := ⟨_, rfl⟩
  keys _ := ⟨_, rfl⟩

/-- The runtime of a rehearsal. -/
def rehearsed : Runtime Rehearsal :=
  { toSignals := (Rehearsal.steady later).toSignals, request := (Rehearsal.steady later).request }

end Planner.Sample

open Planner Planner.Sample in
theorem outage_transparent_sample :
    away.Unreachable ∧ ∃ answer t' requests k' states,
      planner.cycle {} (rehearsed.withStore away) alone alone {} later (stuck, ()) =
        (answer, (t', k')) ∧
      planner.cycle {} (rehearsed.logged.withStore away) alone alone {} later
        ((stuck, []), ()) = (answer, ((t', requests), k')) ∧
      planner.cycle {} (rehearsed.withStore memoryStore) alone alone {} later (stuck, ∅) =
        (answer, (t', states)) ∧
      planner.cycle {} (rehearsed.logged.withStore memoryStore) alone alone {} later
        ((stuck, []), ∅) = (answer, ((t', requests), states)) ∧
      requests.length = 3 := by
  obtain ⟨answer, t', requests, k', states, ran, listed, ran', listed'⟩ :=
    outage_transparent rehearsed away_unreachable planner {} alone alone {} later stuck ()
  have asked : (planner.cycle {} (rehearsed.logged.withStore away) alone alone {} later
      ((stuck, []), ())).2.1.2.length = 3 := by decide +kernel
  rw [listed] at asked
  exact ⟨away_unreachable, answer, t', requests, k', states, ran, listed, ran', listed', asked⟩

end Steward
