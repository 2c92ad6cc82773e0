/-
# Runs over an extended state

A state may carry more than a host knows of, a record of the calls for one. If every step over the
extended state does to the host's part what the step of the host does, and answers the same
(`Step.Over`), so does every run (`Runner.run_over`). What is kept besides has no influence.

For a command it is enough that its own leaves do so (`Behaviour.OverAt`), for the leaves of planned
commands that the requests and the changes to the store do (`Host.Over`), and for what is planned
that the store is asked in this way (`Planner.plan_over`).

Key definitions: `Step.Over`, `Signals.Over`, `Behaviour.OverAt`, `Behaviour.Over`, `Host.Over`.
Key theorems: `Command.execute_over`, `Runner.run_over_of_leaves`, `Planner.plan_over`,
`Host.Over.behaviour`.
-/
import Steward.Cycle.Runner
import Steward.Plan.Planner
import Steward.Proofs.Command.Attempts

namespace Steward

variable {α β σ σ' : Type} (π : σ' → σ)

/-- A step over an extended state does to the part below what a step over that part does. -/
def Step.Over (step' : Step σ' β) (step : Step σ β) : Prop :=
  ∀ x, Prod.map id π (step' x) = step (π x)

structure Signals.Over (g' : Signals σ') (g : Signals σ) : Prop where
  pause : ∀ x, π (g'.pause x) = g.pause (π x)
  cancelled : ∀ x, g'.cancelled x = g.cancelled (π x)
  now : ∀ x, g'.now x = g.now (π x)
  wait : ∀ d x, Prod.map id π (g'.wait d x) = g.wait d (π x)

/-- Doing a leaf, and taking it back, does to the part below what it does there. -/
def Behaviour.OverAt (b' : Behaviour α σ') (b : Behaviour α σ) (a : α) : Prop :=
  ∀ t, Step.Over π (b'.execute t a) (b.execute t a) ∧ Step.Over π (b'.undo t a) (b.undo t a)

structure Behaviour.Over (b' : Behaviour α σ') (b : Behaviour α σ) : Prop where
  execute : ∀ t a, Step.Over π (b'.execute t a) (b.execute t a)
  undo : ∀ t a, Step.Over π (b'.undo t a) (b.undo t a)

variable {π}

theorem Behaviour.Over.overAt {b' : Behaviour α σ'} {b : Behaviour α σ} (covers : b'.Over π b)
    (a : α) : b'.OverAt π b a :=
  fun t => ⟨covers.execute t a, covers.undo t a⟩

theorem Signals.Over.isCancelled {g' : Signals σ'} {g : Signals σ} (covers : g'.Over π g)
    (t : Token) (x : σ') : Prod.map id π (g'.isCancelled t x) = g.isCancelled t (π x) := by
  simp only [Signals.isCancelled, ← covers.pause, ← covers.cancelled]
  rfl

namespace Command

variable {b' : Behaviour α σ'} {b : Behaviour α σ}

mutual

theorem undo_over : ∀ (c : Command α), (∀ a ∈ c.leaves, b'.OverAt π b a) → ∀ t : Token,
    Step.Over π (c.undo b' t) (c.undo b t)
  | leaf a, covers, t => (covers a (List.mem_singleton_self a) t).2
  | group _ _ cs, covers, t => undoAll_over cs covers t

theorem undoAll_over : ∀ (cs : List (Command α)), (∀ a ∈ leavesOf cs, b'.OverAt π b a) →
    ∀ t : Token, Step.Over π (undoAll b' t cs) (undoAll b t cs)
  | [], _, _ => fun _ => rfl
  | c :: cs, covers, t => fun x => by
    have later := undoAll_over cs (fun a ha => covers a (List.mem_append_right _ ha)) t x
    rw [undoAll, undoAll, ← later]
    cases undoAll b' t cs x with
    | mk answer x₁ =>
      cases answer with
      | ok => exact undo_over c (fun a ha => covers a (List.mem_append_left _ ha)) t x₁
      | error => rfl

end

mutual

/-- A command does to the part below what it does there, if its leaves do. -/
theorem execute_over : ∀ (c : Command α), (∀ a ∈ c.leaves, b'.OverAt π b a) → ∀ t : Token,
    Step.Over π (c.execute b' t) (c.execute b t)
  | leaf a, covers, t => (covers a (List.mem_singleton_self a) t).1
  | group _ _ cs, covers, t => executeAll_over cs covers t

theorem executeAll_over : ∀ (cs : List (Command α)), (∀ a ∈ leavesOf cs, b'.OverAt π b a) →
    ∀ t : Token, Step.Over π (executeAll b' t cs) (executeAll b t cs)
  | [], _, _ => fun _ => rfl
  | c :: cs, covers, t => fun x => by
    have own : ∀ a ∈ c.leaves, b'.OverAt π b a := fun a ha =>
      covers a (List.mem_append_left _ ha)
    have first := execute_over c own t x
    rw [executeAll, executeAll, ← first]
    cases execute b' t c x with
    | mk answer x₁ =>
      cases answer with
      | error => rfl
      | ok =>
        have later := executeAll_over cs (fun a ha => covers a (List.mem_append_right _ ha)) t x₁
        simp only [Prod.map, id, ← later]
        cases executeAll b' t cs x₁ with
        | mk answer x₂ =>
          cases answer with
          | ok => rfl
          | error =>
            simp only [← undo_over c own .fresh x₂]
            rfl

end

end Command

namespace Runner

variable (r : Runner) {g' : Signals σ'} {g : Signals σ} {b' : Behaviour α σ'} {b : Behaviour α σ}

theorem attempt_over (signals : g'.Over π g) (c : Command α)
    (covers : ∀ a ∈ c.leaves, b'.OverAt π b a) : ∀ (left : Nat) (number : UInt32) (x : σ'),
      Prod.map id π (r.attempt g' b' c left number x) = r.attempt g b c left number (π x)
  | left, number, x => by
    have once := Command.execute_over c covers .cycle x
    unfold attempt
    rw [← once]
    cases c.execute b' .cycle x with
    | mk answer x₁ =>
      cases answer with
      | ok => rfl
      | error e =>
        simp only [Prod.map, id]
        split
        · rfl
        · split
          · rfl
          · cases left with
            | zero => rfl
            | succ left =>
              simp only [← signals.wait]
              cases g'.wait (r.backoff.window (number - 1)) x₁ with
              | mk interrupted x₂ =>
                cases interrupted with
                | true => rfl
                | false => exact attempt_over signals c covers left (number + 1) x₂

theorem runCommand_over (signals : g'.Over π g) (c : Command α)
    (covers : ∀ a ∈ c.leaves, b'.OverAt π b a) (x : σ') :
    Prod.map id π (r.runCommand g' b' c x) = r.runCommand g b c (π x) :=
  r.attempt_over signals c covers _ _ x

variable [Labelled α]

theorem runAll_over (signals : g'.Over π g) : ∀ (cs : List (Command α)),
    (∀ c ∈ cs, ∀ a ∈ c.leaves, b'.OverAt π b a) → ∀ x : σ',
      Prod.map id π (r.runAll g' b' cs x) = r.runAll g b cs (π x)
  | [], _, _ => rfl
  | c :: cs, covers, x => by
    have looked := signals.isCancelled .cycle x
    rw [runAll, runAll, ← looked]
    cases g'.isCancelled .cycle x with
    | mk cancelled x₁ =>
      cases cancelled with
      | true => rfl
      | false =>
        have first := r.runCommand_over signals c (covers c List.mem_cons_self) x₁
        simp only [Prod.map, id, ← first]
        cases r.runCommand g' b' c x₁ with
        | mk ended x₂ =>
          have later :=
            runAll_over signals cs (fun c' hc' => covers c' (List.mem_cons_of_mem _ hc')) x₂
          simp only [← later]
          cases ended.2 <;> rfl

/-- A run over an extended state is a run of the host, with the same result, if the leaves of the
plan do to the part below what they do there. -/
theorem run_over_of_leaves (signals : g'.Over π g) {p : Plan α}
    (covers : ∀ c ∈ p.commands, ∀ a ∈ c.leaves, b'.OverAt π b a) (x : σ') :
    Prod.map id π (r.run g' b' p x) = r.run g b p (π x) := by
  have all := r.runAll_over signals p.commands covers x
  simp only [run, ← all, signals.now]
  rfl

theorem run_over (signals : g'.Over π g) (behaviour : b'.Over π b) (p : Plan α) (x : σ') :
    Prod.map id π (r.run g' b' p x) = r.run g b p (π x) :=
  r.run_over_of_leaves signals (fun _ _ a _ => behaviour.overAt a) x

end Runner

/-! ### Plans over an extended state

What is planned depends on what the store tells of the modules' restarts. It may tell it only as
long as its state is of some kind, and then it stays so. -/

theorem StateStore.history_over {st' : StateStore σ'} {st : StateStore σ} {k : String}
    (told : Step.Over π (st'.get k) (st.get k)) (x : σ') :
    Prod.map id π (st'.history k x) = st.history k (π x) := by
  have asked := told x
  simp only [StateStore.history, ← asked]
  cases st'.get k x with
  | mk answer x₁ =>
    cases answer with
    | error => rfl
    | ok known => cases known <;> rfl

namespace Planner

variable {st' : StateStore σ'} {st : StateStore σ} {P : σ' → Prop} (p : Planner) (now : Instant)
  (stays : ∀ k x, P x → P (st'.history k x).2)
  (told : ∀ k x, P x → Prod.map id π (st'.history k x) = st.history k (π x))

include stays told

theorem policyCommands_over : ∀ (ms : List Module) (x : σ'), P x →
    Prod.map id π (p.policyCommands st' now ms x) = p.policyCommands st now ms (π x)
  | [], _, _ => rfl
  | m :: ms, x, kind => by
    have first := told m.name x kind
    have still := stays m.name x kind
    rw [policyCommands, policyCommands, ← first]
    cases asked : st'.history m.name x with
    | mk state x₁ =>
      rw [asked] at still
      have later := policyCommands_over ms x₁ still
      simp only [Prod.map, id, ← later]

/-- What is planned over an extended state is what is planned over the part below. -/
theorem plan_over (desired current : ModuleSet) (ctx : PlanContext) {x : σ'} (kind : P x) :
    Prod.map id π (p.plan st' desired current ctx now x) =
      p.plan st desired current ctx now (π x) := by
  have upkeep := p.policyCommands_over now stays told
    (settled desired current (desired.diff current)) x kind
  simp only [plan]
  cases p.validate desired ctx with
  | error => rfl
  | ok =>
    simp only [← upkeep]
    rfl

end Planner

/-! ### Hosts over an extended state -/

variable (π) in
/-- A host over an extended state does to the part below what another host does. -/
structure Host.Over (h' : Host σ') (h : Host σ) : Prop where
  signals : h'.toSignals.Over π h.toSignals
  request : ∀ t r, Step.Over π (h'.request t r) (h.request t r)
  update : ∀ k f, Step.Over π (h'.store.update k f) (h.store.update k f)
  putOrUpdate : ∀ k v f, Step.Over π (h'.store.putOrUpdate k v f) (h.store.putOrUpdate k v f)

namespace Host.Over

variable {h' : Host σ'} {h : Host σ}

theorem record {name : String} (signals : h'.toSignals.Over π h.toSignals)
    (put : ∀ v f, Step.Over π (h'.store.putOrUpdate name v f) (h.store.putOrUpdate name v f)) :
    Step.Over π (Action.record h' name) (Action.record h name) := by
  intro x
  have stored := put (.first (h.now (π x))) (.record (h.now (π x))) x
  simp only [Action.record, signals.now, ← stored]
  cases h'.store.putOrUpdate name (.first (h.now (π x))) (.record (h.now (π x))) x with
  | mk answer x₁ =>
    cases answer with
    | ok => rfl
    | error e =>
      cases e with
      | store fault => cases fault <;> rfl
      | _ => rfl

theorem reset {name : String}
    (update : ∀ f, Step.Over π (h'.store.update name f) (h.store.update name f)) :
    Step.Over π (Action.reset h' name) (Action.reset h name) := by
  intro x
  have stored := update .reset x
  simp only [Action.reset, ← stored]
  cases h'.store.update name .reset x with
  | mk answer x₁ =>
    cases answer with
    | ok => rfl
    | error e =>
      cases e with
      | store fault => cases fault <;> rfl
      | _ => rfl

/-- A leaf looks at its token before it is carried out. -/
theorem execute (signals : h'.toSignals.Over π h.toSignals) {t : Token} {a : Action}
    (carried : Step.Over π (a.carryOut h' t) (a.carryOut h t)) :
    Step.Over π (a.execute h' t) (a.execute h t) := by
  intro x
  have looked := signals.isCancelled t x
  simp only [Action.execute, Host.ensureLive, ← looked]
  cases h'.isCancelled t x with
  | mk cancelled x₁ =>
    cases cancelled with
    | true => rfl
    | false => exact carried x₁

/-- A leaf does to the part below what it does there, if its requests and its change to the store
do. -/
theorem leaf {a : Action} (signals : h'.toSignals.Over π h.toSignals)
    (request : ∀ r, a.forward = some r ∨ a.backward = some r → ∀ t,
      Step.Over π (h'.request t r) (h.request t r))
    (record : ∀ name, a = .recordRestart name →
      Step.Over π (Action.record h' name) (Action.record h name))
    (reset : ∀ name, a = .resetRestarts name →
      Step.Over π (Action.reset h' name) (Action.reset h name)) :
    (Action.behaviour h').OverAt π (Action.behaviour h) a := by
  have carried : ∀ t, Step.Over π (a.carryOut h' t) (a.carryOut h t) := by
    intro t x
    cases a with
    | host op m =>
      rw [Action.carryOut, Action.carryOut]
      cases made : op.forward m with
      | ok r =>
        have asked : (Action.host op m).forward = some r := by rw [Action.forward, made]
        exact request r (.inl asked) t x
      | error => rfl
    | cluster op m => exact request (op.forward m) (.inl rfl) t x
    | recordRestart name => exact record name rfl x
    | resetRestarts name => exact reset name rfl x
  intro t
  constructor
  · exact execute signals (carried t)
  · intro x
    simp only [Action.behaviour, Action.undo]
    cases back : a.backward with
    | none => rfl
    | some r => exact request r (.inr back) t x

/-- The leaves of planned commands do to the part below what they do there. -/
theorem behaviour (covers : h'.Over π h) :
    (Action.behaviour h').Over π (Action.behaviour h) := by
  have leaves : ∀ a, (Action.behaviour h').OverAt π (Action.behaviour h) a := fun a =>
    leaf covers.signals (fun r _ t => covers.request t r)
      (fun name _ => record covers.signals (covers.putOrUpdate name))
      fun name _ => reset (covers.update name)
  exact ⟨fun t a => (leaves a t).1, fun t a => (leaves a t).2⟩

end Host.Over
end Steward
