/-
# A log of the calls of a run

A host can keep a log of every call to the runtime and the store: what was called, whether it was
answered without a failure, and whether the cycle had been cancelled when the call was made
(`Host.logged`). The log has no influence on what happens (`Host.run_logged`).

A leaf that is done makes one call, and none if the cycle is cancelled at the look at its token
(`Action.execute_logs`). Leaves that are done one after another log their calls in order; if one
of them fails, what follows in the log is the taking back of those before it, from the last to the
first, with the fresh token (`Command.executeAll_logs`).

Key definitions: `Contact`, `Logged`, `Host.logged`, `Action.Completes`, `Action.Breaks`,
`BrokenOff`.
Key theorems: `Host.run_logged`, `Action.execute_logs`, `Command.executeAll_logs`.
-/
import Mathlib.Data.List.Forall2
import Steward.Proofs.Command.Attempts
import Steward.Proofs.Cycle.Simulation

namespace Steward

variable {σ : Type}

/-- A call to the runtime, with the token that it is handed, or to the store. -/
inductive Contact where
  | request (t : Token) (r : Request)
  | get (name : String)
  | update (name : String)
  | put (name : String)
  | remove (name : String)
  | keys

/-- A call, whether its answer was no failure, and whether the cycle was cancelled before it. -/
structure Logged where
  contact : Contact
  ok : Bool
  late : Bool

namespace Host

/-- A step of which the call is put at the end of the log. -/
def tapped {α : Type} (h : Host σ) (contact : Contact) (step : Step σ α) :
    Step (σ × List Logged) α := fun x =>
  let (answer, s) := step x.1
  (answer, (s, x.2 ++ [⟨contact, answer.isOk, h.cancelled x.1⟩]))

/-- The host with a log of all calls. -/
def logged (h : Host σ) : Host (σ × List Logged) where
  pause x := (h.pause x.1, x.2)
  cancelled x := h.cancelled x.1
  now x := h.now x.1
  wait d x := ((h.wait d x.1).1, ((h.wait d x.1).2, x.2))
  request t r := h.tapped (.request t r) (h.request t r)
  store :=
    { get := fun k => h.tapped (.get k) (h.store.get k)
      update := fun k f => h.tapped (.update k) (h.store.update k f)
      putOrUpdate := fun k v f => h.tapped (.put k) (h.store.putOrUpdate k v f)
      remove := fun k => h.tapped (.remove k) (h.store.remove k)
      keys := h.tapped .keys h.store.keys }

theorem logged_over (h : Host σ) : h.logged.Over Prod.fst h where
  signals := ⟨fun _ => rfl, fun _ => rfl, fun _ => rfl, fun _ _ => rfl⟩
  request _ _ _ := rfl
  update _ _ _ := rfl
  putOrUpdate _ _ _ _ := rfl

/-- A run that is logged is the run that takes place without. -/
theorem run_logged (h : Host σ) (r : Runner) (plan : Plan Action) (s : σ) (past : List Logged) :
    Prod.map id Prod.fst
        (r.run h.logged.toSignals (Action.behaviour h.logged) plan (s, past)) =
      r.run h.toSignals (Action.behaviour h) plan s :=
  r.run_over h.logged_over.signals h.logged_over.behaviour plan (s, past)

end Host

/-! ### What leaves log -/

namespace Action

/-- The call by which a leaf is done, unless there is a fault in what it is made from. -/
def contact : Action → Option Contact
  | host op m => (host op m).forward.map (.request .cycle)
  | cluster op m => (cluster op m).forward.map (.request .cycle)
  | recordRestart name => some (.put name)
  | resetRestarts name => some (.update name)

/-- The calls by which a leaf is taken back: one with the fresh token, or none. -/
def takeBack (a : Action) : List Contact := (a.backward.map (.request .fresh)).toList

/-- The call of a leaf that was done. A request was answered without a failure; a change to the
store need not have been. -/
structure Completes (a : Action) (e : Logged) : Prop where
  contact : a.contact = some e.contact
  punctual : e.late = false
  answered : a.forward.isSome = true → e.ok = true

/-- The calls of a leaf that failed: none, or one that was answered with a failure. -/
def Breaks (a : Action) (es : List Logged) : Prop :=
  es = [] ∨ ∃ e, es = [e] ∧ a.contact = some e.contact ∧ e.late = false ∧ e.ok = false

theorem Breaks.punctual {a : Action} {es : List Logged} (breaks : a.Breaks es) :
    ∀ e ∈ es, e.late = false := by
  rcases breaks with rfl | ⟨e, rfl, -, punctual, -⟩
  · simp
  · simpa using punctual

/-- What a leaf adds to the log when it is done, or fails. -/
def Logs (a : Action) (ok : Bool) (es : List Logged) : Prop :=
  ok = true ∧ (∃ e, es = [e] ∧ a.Completes e) ∨ ok = false ∧ a.Breaks es

variable {h : Host σ}

/-- A step that is tapped logs one call. -/
theorem tapped_eq {α : Type} {contact : Contact} {step : Step σ α} {x : σ × List Logged}
    {answer : Except Error α} {s : σ} (e : step x.1 = (answer, s)) :
    h.tapped contact step x = (answer, (s, x.2 ++ [⟨contact, answer.isOk, h.cancelled x.1⟩])) := by
  rw [Host.tapped, e]

/-- A request logs itself. -/
theorem request_logs {a : Action} {r : Request} (asked : a.contact = some (.request .cycle r))
    (x : σ × List Logged) (live : h.cancelled x.1 = false) :
    ∃ es, (h.logged.request .cycle r x).2.2 = x.2 ++ es ∧
      a.Logs (h.logged.request .cycle r x).1.isOk es := by
  cases made : h.request .cycle r x.1 with
  | mk answer s =>
    have log : h.logged.request .cycle r x = _ := tapped_eq made
    rw [log]
    refine ⟨_, rfl, ?_⟩
    cases answer with
    | ok => exact .inl ⟨rfl, _, rfl, ⟨asked, live, fun _ => rfl⟩⟩
    | error => exact .inr ⟨rfl, .inr ⟨_, rfl, asked, live, rfl⟩⟩

/-- A record is one call, and a store that is out of reach does not make it fail. -/
theorem record_logs (name : String) (x : σ × List Logged) (live : h.cancelled x.1 = false) :
    ∃ es, (record h.logged name x).2.2 = x.2 ++ es ∧
      (recordRestart name).Logs (record h.logged name x).1.isOk es := by
  have done : ∀ ok, (recordRestart name).Completes ⟨.put name, ok, h.cancelled x.1⟩ := fun _ =>
    ⟨rfl, live, fun asked => nomatch asked⟩
  cases put : h.store.putOrUpdate name (.first (h.now x.1)) (.record (h.now x.1)) x.1 with
  | mk answer s =>
    have log : h.logged.store.putOrUpdate name (.first (h.logged.now x)) (.record (h.logged.now x))
        x = _ := tapped_eq put
    simp only [record, log]
    cases answer with
    | ok => exact ⟨_, rfl, .inl ⟨rfl, _, rfl, done true⟩⟩
    | error e =>
      have failed : (recordRestart name).Logs false [⟨.put name, false, h.cancelled x.1⟩] :=
        .inr ⟨rfl, .inr ⟨_, rfl, rfl, live, rfl⟩⟩
      cases e with
      | store fault =>
        cases fault with
        | unavailable => exact ⟨_, rfl, .inl ⟨rfl, _, rfl, done false⟩⟩
        | _ => exact ⟨_, rfl, failed⟩
      | _ => exact ⟨_, rfl, failed⟩

/-- A reset is one call, and a name that the store does not know does not make it fail. -/
theorem reset_logs (name : String) (x : σ × List Logged) (live : h.cancelled x.1 = false) :
    ∃ es, (reset h.logged name x).2.2 = x.2 ++ es ∧
      (resetRestarts name).Logs (reset h.logged name x).1.isOk es := by
  have done : ∀ ok, (resetRestarts name).Completes ⟨.update name, ok, h.cancelled x.1⟩ := fun _ =>
    ⟨rfl, live, fun asked => nomatch asked⟩
  cases update : h.store.update name .reset x.1 with
  | mk answer s =>
    have log : h.logged.store.update name .reset x = _ := tapped_eq update
    simp only [reset, log]
    cases answer with
    | ok => exact ⟨_, rfl, .inl ⟨rfl, _, rfl, done true⟩⟩
    | error e =>
      have failed : (resetRestarts name).Logs false [⟨.update name, false, h.cancelled x.1⟩] :=
        .inr ⟨rfl, .inr ⟨_, rfl, rfl, live, rfl⟩⟩
      cases e with
      | store fault =>
        cases fault with
        | notFound => exact ⟨_, rfl, .inl ⟨rfl, _, rfl, done false⟩⟩
        | _ => exact ⟨_, rfl, failed⟩
      | _ => exact ⟨_, rfl, failed⟩

theorem carryOut_logs (a : Action) (x : σ × List Logged) (live : h.cancelled x.1 = false) :
    ∃ es, (a.carryOut h.logged .cycle x).2.2 = x.2 ++ es ∧
      a.Logs (a.carryOut h.logged .cycle x).1.isOk es := by
  cases a with
  | host op m =>
    rw [carryOut]
    cases made : op.forward m with
    | ok r =>
      have asked : (host op m).contact = some (.request .cycle r) := by
        rw [contact, forward, made]
        rfl
      exact request_logs asked x live
    | error => exact ⟨[], (List.append_nil _).symm, .inr ⟨rfl, .inl rfl⟩⟩
  | cluster op m => exact request_logs rfl x live
  | recordRestart name => exact record_logs name x live
  | resetRestarts name => exact reset_logs name x live

/-- A leaf is refused at the look at its token, or it logs its call if there is one. It is refused
if the cycle is cancelled after the pause before the look. -/
theorem execute_logs (a : Action) (x : σ × List Logged) :
    ∃ es, (a.execute h.logged .cycle x).2.2 = x.2 ++ es ∧
      a.Logs (a.execute h.logged .cycle x).1.isOk es ∧
      (h.cancelled (h.pause x.1) = true → (a.execute h.logged .cycle x).1.isOk = false ∧ es = []) :=
    by
  have look : h.logged.isCancelled .cycle x = (h.cancelled (h.pause x.1), (h.pause x.1, x.2)) := rfl
  simp only [execute, Host.ensureLive, look]
  cases cancelled : h.cancelled (h.pause x.1) with
  | true => exact ⟨[], (List.append_nil _).symm, .inr ⟨rfl, .inl rfl⟩, fun _ => ⟨rfl, rfl⟩⟩
  | false =>
    obtain ⟨es, log, logs⟩ := a.carryOut_logs (h := h) (h.pause x.1, x.2) cancelled
    exact ⟨es, log, logs, fun yes => absurd yes Bool.false_ne_true⟩

/-- To take a leaf back makes the calls that are there for it. -/
theorem undo_logs (a : Action) (x : σ × List Logged) :
    ∃ es, (a.undo h.logged .fresh x).2.2 = x.2 ++ es ∧ es.map Logged.contact = a.takeBack := by
  simp only [undo, takeBack]
  cases a.backward with
  | none => exact ⟨[], (List.append_nil _).symm, rfl⟩
  | some r => exact ⟨_, rfl, rfl⟩

end Action

/-! ### What groups of leaves log -/

/-- The calls of leaves that were to be done one after another and of which one failed: those of the
leaves that were done and of the one that failed, and then those that take back what was done, from
the last to the first. -/
def BrokenOff (as : List Action) (begun undone : List Logged) : Prop :=
  ∃ done failed rest finished broken, as = done ++ failed :: rest ∧ begun = finished ++ broken ∧
    List.Forall₂ Action.Completes done finished ∧ failed.Breaks broken ∧
    undone.map Logged.contact = done.reverse.flatMap Action.takeBack

namespace BrokenOff

variable {a : Action} {as : List Action} {e : Logged} {begun undone back : List Logged}

theorem first {rest : List Action} (breaks : a.Breaks begun) : BrokenOff (a :: rest) begun [] :=
  ⟨[], a, rest, [], begun, rfl, rfl, .nil, breaks, rfl⟩

/-- A leaf that was done before is taken back after the others. -/
theorem cons (completes : a.Completes e) (broken : BrokenOff as begun undone)
    (taken : back.map Logged.contact = a.takeBack) :
    BrokenOff (a :: as) (e :: begun) (undone ++ back) := by
  obtain ⟨done, failed, rest, finished, broken, rfl, rfl, completed, breaks, backwards⟩ := broken
  refine ⟨a :: done, failed, rest, e :: finished, broken, rfl, rfl, .cons completes completed,
    breaks, ?_⟩
  rw [List.map_append, backwards, taken, List.reverse_cons, List.flatMap_append]
  simp

theorem punctual_of_completed {done : List Action} {es : List Logged}
    (completed : List.Forall₂ Action.Completes done es) : ∀ e ∈ es, e.late = false := by
  induction completed with
  | nil => simp
  | cons completes _ ih => simpa using ⟨completes.punctual, ih⟩

/-- No call is late before the taking back begins. -/
theorem punctual (broken : BrokenOff as begun undone) : ∀ e ∈ begun, e.late = false := by
  obtain ⟨done, failed, rest, finished, broken, -, rfl, completed, breaks, -⟩ := broken
  intro e he
  rcases List.mem_append.1 he with he | he
  · exact punctual_of_completed completed e he
  · exact breaks.punctual e he

end BrokenOff

namespace Command

variable {h : Host σ}

/-- Leaves one after another log their calls, and if one fails the taking back of those before. -/
theorem executeAll_logs : ∀ (as : List Action) (x : σ × List Logged),
    ∃ begun undone,
      (executeAll (Action.behaviour h.logged) .cycle (as.map leaf) x).2.2 = x.2 ++ begun ++ undone ∧
      ((executeAll (Action.behaviour h.logged) .cycle (as.map leaf) x).1.isOk = true ∧
          List.Forall₂ Action.Completes as begun ∧ undone = [] ∨
        (executeAll (Action.behaviour h.logged) .cycle (as.map leaf) x).1.isOk = false ∧
          BrokenOff as begun undone)
  | [], x => ⟨[], [], by simp [executeAll], .inl ⟨rfl, .nil, rfl⟩⟩
  | a :: as, x => by
    obtain ⟨es, log, logs, -⟩ := a.execute_logs (h := h) x
    simp only [List.map_cons, executeAll, execute, undo, Action.behaviour]
    cases first : a.execute h.logged .cycle x with
    | mk answer x₁ =>
      rw [first] at log logs
      have grown : x₁.2 = x.2 ++ es := log
      cases answer with
      | error =>
        have breaks : a.Breaks es := (logs.resolve_left fun done => Bool.false_ne_true done.1).2
        exact ⟨es, [], by simp [grown], .inr ⟨rfl, .first breaks⟩⟩
      | ok =>
        obtain ⟨e, rfl, completes⟩ :=
          (logs.resolve_right fun failed => Bool.false_ne_true failed.1.symm).2
        obtain ⟨begun, undone, log₁, ends⟩ := executeAll_logs as x₁
        simp only [Action.behaviour] at log₁ ends
        dsimp only
        cases later : executeAll ⟨Action.execute h.logged, Action.undo h.logged⟩ .cycle
            (as.map leaf) x₁ with
        | mk answer x₂ =>
          rw [later] at log₁ ends
          have grown₁ : x₂.2 = x₁.2 ++ begun ++ undone := log₁
          cases answer with
          | ok =>
            obtain ⟨-, completed, rfl⟩ :=
              ends.resolve_right fun failed => Bool.false_ne_true failed.1.symm
            exact ⟨e :: begun, [], by simp [grown₁, grown],
              .inl ⟨rfl, .cons completes completed, rfl⟩⟩
          | error =>
            obtain ⟨-, broken⟩ := ends.resolve_left fun done => Bool.false_ne_true done.1
            obtain ⟨back, log₂, taken⟩ := a.undo_logs (h := h) x₂
            exact ⟨e :: begun, undone ++ back, by simp [log₂, grown₁, grown],
              .inr ⟨rfl, broken.cons completes taken⟩⟩

end Command
end Steward
