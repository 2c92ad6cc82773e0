/-
# What commands do to the restart state of a module

A host remembers if its store acts on restart states as the store in memory does, which never fails,
and nothing else touches them (`Host.Remembers`). Then only two leaves touch the state of a module:
the record of a restart and the reset, and both only that of their own module
(`Host.Remembers.leaf_frame`).

What the planner is told of a module is what is stored, or that the module was never restarted.

Key definitions: `Host.Remembers`, `stateAt`, `Action.notes`.
Key theorems: `Host.Remembers.leaf_frame`, `Host.Remembers.does_frame`, `Host.Remembers.record`,
`Host.Remembers.reset`, `Host.Remembers.told_eq`, `Host.Remembers.leaf_uncancelled`.
-/
import Steward.Proofs.Cycle.Outcomes
import Steward.Proofs.NameMap
import Steward.Proofs.Plan.Shape

namespace Steward

variable {σ : Type}

/-- A host of which the store is one in memory, and on which nothing else touches the restart
states. -/
structure Host.Remembers (h : Host σ) (states : σ → States) : Prop where
  keeps : h.toSignals.Keeps states
  request : ∀ t r s, states (h.request t r s).2 = states s
  get : ∀ k s, Prod.map id states (h.store.get k s) = memoryStore.get k (states s)
  update : ∀ k f s, Prod.map id states (h.store.update k f s) = memoryStore.update k f (states s)
  putOrUpdate : ∀ k v f s,
    Prod.map id states (h.store.putOrUpdate k v f s) = memoryStore.putOrUpdate k v f (states s)

/-- The view of the restart state of a module. -/
abbrev stateAt (states : σ → States) (n : String) (s : σ) : Option RestartState := (states s).get? n

/-- Whether a leaf notes something in the restart state of a module. -/
def Action.notes (n : String) : Action → Prop
  | recordRestart name | resetRestarts name => name = n
  | host .. | cluster .. => False

theorem Action.module_of_notes {n : String} {a : Action} (h : a.notes n) :
    Labelled.module a = n := by
  cases a with
  | host | cluster => cases h
  | recordRestart | resetRestarts => exact h

namespace Host.Remembers

variable {h : Host σ} {states : σ → States} (remembers : h.Remembers states) {n : String}

include remembers

theorem state_keeps (n : String) : h.toSignals.Keeps (stateAt states n) where
  pause s := congrArg (NameMap.get? · n) (remembers.keeps.pause s)
  wait d s := congrArg (NameMap.get? · n) (remembers.keeps.wait d s)

/-! ### What the store answers -/

theorem get_keeps (k : String) (s : σ) : states (h.store.get k s).2 = states s :=
  congrArg Prod.snd (remembers.get k s)

theorem get_answer (k : String) (s : σ) : (h.store.get k s).1 = .ok ((states s).get? k) :=
  congrArg Prod.fst (remembers.get k s)

theorem history_eq (k : String) (s : σ) :
    (h.store.history k s).1 = ((states s).get? k).getD .never ∧
      states (h.store.history k s).2 = states s := by
  have answer := remembers.get_answer k s
  have kept := remembers.get_keeps k s
  unfold StateStore.history
  split <;> rename_i e <;> rw [e] at answer kept
  · exact ⟨by rw [← Except.ok.inj answer]; rfl, kept⟩
  · exact ⟨by rw [← Except.ok.inj answer]; rfl, kept⟩
  · cases answer

/-- What the planner is told of a module that it asks for. -/
theorem told_eq : ∀ {ks : List String} {s : σ}, n ∈ ks →
    h.store.told ks s n = (stateAt states n s).getD .never
  | k :: ks, s, mem => by
    rw [StateStore.told]
    split
    · rename_i same
      rw [same, (remembers.history_eq k s).1]
    · rename_i other
      rw [told_eq ((List.mem_cons.1 mem).resolve_left other), stateAt, (remembers.history_eq k s).2]

/-- A count above zero is told only of what is stored. -/
theorem stored_of_told : ∀ {ks : List String} {s : σ}, 0 < (h.store.told ks s n).count →
    stateAt states n s = some (h.store.told ks s n)
  | [], _, positive => absurd positive (show ¬ (0 : UInt32) < 0 by decide)
  | k :: ks, s, positive => by
    obtain ⟨answer, kept⟩ := remembers.history_eq k s
    rw [StateStore.told] at positive ⊢
    by_cases same : n = k
    · rw [if_pos same, answer] at positive ⊢
      subst same
      cases there : (states s).get? n with
      | none =>
        rw [there] at positive
        exact absurd positive (by decide)
      | some stored => rw [stateAt, there, Option.getD_some]
    · rw [if_neg same] at positive ⊢
      have later := stored_of_told positive
      rwa [stateAt, kept] at later

theorem policyCommands_keeps (p : Planner) (now : Instant) (ms : List Module) (s : σ) :
    states (p.policyCommands h.store now ms s).2 = states s :=
  Planner.policyCommands_moves (R := fun s s' => states s' = states s) remembers.get_keeps p now ms s

/-! ### What leaves do -/

/-- A record puts the first restart, or one more, in the place of what is stored. -/
theorem record (name : String) (s : σ) : (Action.record h name s).1 = .ok () ∧
    states (Action.record h name s).2 = (states s).insert name
      (((states s).get? name).elim (.first (h.now s)) (.record (h.now s))) := by
  have put := remembers.putOrUpdate name (.first (h.now s)) (.record (h.now s)) s
  simp only [Action.record]
  cases e : h.store.putOrUpdate name (.first (h.now s)) (.record (h.now s)) s with
  | mk answer s' =>
    rw [e] at put
    cases there : (states s).get? name <;> simp only [memoryStore, there] at put <;>
      obtain ⟨rfl, stored⟩ := Prod.mk.inj put <;> exact ⟨rfl, stored⟩

/-- A reset takes the count of what is stored back, and nothing is stored by it. -/
theorem reset (name : String) (s : σ) : (Action.reset h name s).1 = .ok () ∧
    states (Action.reset h name s).2 = (states s).modify name .reset := by
  have changed := remembers.update name .reset s
  simp only [Action.reset, NameMap.modify]
  cases e : h.store.update name .reset s with
  | mk answer s' =>
    rw [e] at changed
    cases there : (states s).get? name <;> simp only [memoryStore, there] at changed <;>
      obtain ⟨rfl, stored⟩ := Prod.mk.inj changed <;> exact ⟨rfl, stored⟩

/-- A leaf that notes nothing about the module leaves its state alone. -/
theorem leaf_frame {a : Action} (silent : ¬ a.notes n) :
    (Action.behaviour h).Moves (fun s s' => stateAt states n s' = stateAt states n s) a := by
  refine Action.moves (remembers.state_keeps n).pause (fun r _ t s => ?_) (fun name e s => ?_)
    fun name e s => ?_
  · exact congrArg (NameMap.get? · n) (remembers.request t r s)
  · rw [stateAt, (remembers.record name s).2, NameMap.get?_insert,
      if_neg fun same => silent (e ▸ same.symm)]
  · rw [stateAt, (remembers.reset name s).2, NameMap.get?_modify,
      if_neg fun same => silent (e ▸ same.symm)]

/-- A command that notes nothing about the module leaves its state alone, however often it is tried.
-/
theorem does_frame {r : Runner} {c : Command Action} (silent : ∀ a ∈ c.leaves, ¬ a.notes n)
    {ok : Bool} {v v' : Option RestartState}
    (does : r.Does (Action.behaviour h) (stateAt states n) c ok v v') : v' = v := by
  obtain ⟨k, -, tried⟩ := does
  refine tried.unchanged fun _ _ _ attempt => ?_
  obtain ⟨s, rfl, -, rfl⟩ := attempt
  exact c.execute_moves (fun a ha => remembers.leaf_frame (silent a ha)) .cycle s

theorem attempted_reset {ok : Bool} {v v' : Option RestartState}
    (attempt : Attempted (Action.behaviour h) (stateAt states n) (.leaf (.resetRestarts n)) ok
      v v') :
    ok = false ∧ v' = v ∨ ok = true ∧ v' = v.map .reset := by
  obtain ⟨s, rfl, rfl, rfl⟩ := attempt
  simp only [Command.execute, Action.behaviour]
  rcases Action.execute_cases (remembers.state_keeps n) .cycle (.resetRestarts n) s with
    failed | ⟨s₁, still, e⟩
  · exact .inl failed
  · obtain ⟨answer, stored⟩ := remembers.reset n s₁
    refine .inr ⟨by rw [e, Action.carryOut, answer]; rfl, ?_⟩
    rw [e, Action.carryOut, ← still, stateAt, stored, NameMap.get?_modify, if_pos rfl]

/-- A reset that succeeds takes the count back. -/
theorem does_reset {r : Runner} {v v' : Option RestartState}
    (does : r.Does (Action.behaviour h) (stateAt states n) (.leaf (.resetRestarts n)) true v v') :
    v' = v.map .reset := by
  obtain ⟨k, -, tried⟩ := does
  have once := tried.once fun _ _ failed =>
    ((remembers.attempted_reset failed).resolve_right fun done => nomatch done.1).2
  exact ((remembers.attempted_reset once).resolve_left fun failed => nomatch failed.1).2

/-- On a runtime that cancels no request, and with a token that nobody cancels, no leaf fails by
cancellation: the store does not fail, and what a request is made from is at most at fault. -/
theorem leaf_uncancelled (live : h.toSignals.Live)
    (uncancelled : ∀ t r s e, (h.request t r s).1 = .error e → e.isCancelled = false)
    (a : Action) (t : Token) (s : σ) (e : Error)
    (failed : ((Action.behaviour h).execute t a s).1 = .error e) : e.isCancelled = false := by
  simp only [Action.behaviour, a.execute_live live] at failed
  cases a with
  | host op m =>
    rw [Action.carryOut] at failed
    cases made : op.forward m with
    | ok r =>
      rw [made] at failed
      exact uncancelled t r _ e failed
    | error fault =>
      rw [made] at failed
      unfold HostOp.forward at made
      split at made <;> cases made
      cases failed
      rfl
  | cluster op m => exact uncancelled t (op.forward m) _ e failed
  | recordRestart name =>
    rw [Action.carryOut, (remembers.record name _).1] at failed
    cases failed
  | resetRestarts name =>
    rw [Action.carryOut, (remembers.reset name _).1] at failed
    cases failed

end Host.Remembers
end Steward
