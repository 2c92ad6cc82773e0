/-
# A record of the calls of a run

A host can be watched: every request, and every change to the store, is recorded with the time and
the state right after it (`Host.recorded`). The record has no influence on what happens
(`Host.run_recorded`).

A record grows at its end. What a leaf adds to it is quiet for a module unless the leaf restarts the
module, records that or takes back its count: no call in it counts for the module, and its restart
state is the same after each of them (`Host.Remembers.leaf_quiet`).

Key definitions: `Call`, `Moment`, `Host.recorded`, `Call.counts`, `Quiet`.
Key theorems: `Host.run_recorded`, `Host.Remembers.leaf_quiet`.
-/
import Steward.Proofs.Cycle.Simulation
import Steward.Proofs.Device.Memory

namespace Steward

variable {σ : Type}

/-- A call that may have an effect. -/
inductive Call where
  | request (r : Request)
  /-- A restart state is put into the store, or changed if there is one. -/
  | put (name : String)
  /-- A restart state is changed, if there is one. -/
  | update (name : String) (found : Bool)

/-- A call, the time at which it was made and the state that it left. -/
structure Moment (σ : Type) where
  call : Call
  time : Instant
  after : σ

namespace Host

/-- A step whose call is recorded at the end. -/
def noted {α : Type} (h : Host σ) (call : Except Error α → Call) (step : Step σ α) :
    Step (σ × List (Moment σ)) α := fun x =>
  let (answer, s) := step x.1
  (answer, (s, x.2 ++ [⟨call answer, h.now x.1, s⟩]))

/-- The host with a record of its calls. -/
def recorded (h : Host σ) : Host (σ × List (Moment σ)) where
  pause x := (h.pause x.1, x.2)
  cancelled x := h.cancelled x.1
  now x := h.now x.1
  wait d x := ((h.wait d x.1).1, ((h.wait d x.1).2, x.2))
  request t r := h.noted (fun _ => .request r) (h.request t r)
  store :=
    { get := fun k x => ((h.store.get k x.1).1, ((h.store.get k x.1).2, x.2))
      update := fun k f => h.noted (fun answer => .update k answer.isOk) (h.store.update k f)
      putOrUpdate := fun k v f => h.noted (fun _ => .put k) (h.store.putOrUpdate k v f)
      remove := fun k x => ((h.store.remove k x.1).1, ((h.store.remove k x.1).2, x.2))
      keys := fun x => ((h.store.keys x.1).1, ((h.store.keys x.1).2, x.2)) }

/-! ### The record has no influence -/

theorem recorded_signals (h : Host σ) :
    Signals.Over Prod.fst h.recorded.toSignals h.toSignals where
  pause _ := rfl
  cancelled _ := rfl
  now _ := rfl
  wait _ _ := rfl

theorem recorded_over (h : Host σ) : h.recorded.Over Prod.fst h where
  signals := h.recorded_signals
  request _ _ _ := rfl
  update _ _ _ := rfl
  putOrUpdate _ _ _ _ := rfl

theorem recorded_behaviour (h : Host σ) :
    Behaviour.Over Prod.fst (Action.behaviour h.recorded) (Action.behaviour h) :=
  h.recorded_over.behaviour

theorem noted_eq {α : Type} {h : Host σ} (call : Except Error α → Call) {step : Step σ α}
    {x : σ × List (Moment σ)} {answer : Except Error α} {s : σ} (e : step x.1 = (answer, s)) :
    h.noted call step x = (answer, (s, x.2 ++ [⟨call answer, h.now x.1, s⟩])) := by
  rw [noted, e]

/-- A record of a restart is one call. -/
theorem recorded_record (h : Host σ) (name : String) (x : σ × List (Moment σ)) :
    (Action.record h.recorded name x).2 = ((Action.record h name x.1).2,
      x.2 ++ [⟨.put name, h.now x.1, (Action.record h name x.1).2⟩]) := by
  cases e : h.store.putOrUpdate name (.first (h.now x.1)) (.record (h.now x.1)) x.1 with
  | mk answer s =>
    have put : h.recorded.store.putOrUpdate name (.first (h.now x.1)) (.record (h.now x.1)) x =
        (answer, (s, x.2 ++ [⟨.put name, h.now x.1, s⟩])) :=
      noted_eq (fun _ => .put name) e
    simp only [Action.record, h.recorded_signals.now, put, e]
    cases answer with
    | ok => rfl
    | error other => cases other with
      | store fault => cases fault <;> rfl
      | _ => rfl

/-- A reset is one call. -/
theorem recorded_reset (h : Host σ) (name : String) (x : σ × List (Moment σ)) :
    (Action.reset h.recorded name x).2 = ((Action.reset h name x.1).2,
      x.2 ++ [⟨.update name (h.store.update name .reset x.1).1.isOk, h.now x.1,
        (Action.reset h name x.1).2⟩]) := by
  cases e : h.store.update name .reset x.1 with
  | mk answer s =>
    have update : h.recorded.store.update name .reset x =
        (answer, (s, x.2 ++ [⟨.update name answer.isOk, h.now x.1, s⟩])) :=
      noted_eq (fun answer => .update name answer.isOk) e
    simp only [Action.reset, update, e]
    cases answer with
    | ok => rfl
    | error other => cases other with
      | store fault => cases fault <;> rfl
      | _ => rfl

/-- A run that is recorded is the run that takes place without. -/
theorem run_recorded (h : Host σ) (r : Runner) (plan : Plan Action) (s : σ)
    (past : List (Moment σ)) :
    Prod.map id Prod.fst
        (r.run h.recorded.toSignals (Action.behaviour h.recorded) plan (s, past)) =
      r.run h.toSignals (Action.behaviour h) plan s :=
  r.run_over h.recorded_signals h.recorded_behaviour plan (s, past)

end Host

/-! ### What counts for a module -/

/-- Whether a call restarts a module or changes what is stored of it. -/
def Call.counts (n : String) : Call → Prop
  | .request (.restart name) | .request (.rollout name) | .put name | .update name _ => name = n
  | .request _ => False

/-- Whether a leaf restarts a module, records that or takes back its count. -/
def Action.counts (n : String) : Action → Prop
  | .host .restart m | .cluster .rollout m => m.name = n
  | .recordRestart name | .resetRestarts name => name = n
  | .host .. | .cluster .. => False

theorem Action.module_of_counts {n : String} {a : Action} (h : a.counts n) :
    Labelled.module a = n := by
  unfold counts at h
  split at h <;> first | exact h | cases h

/-- A command in which nothing counts for the module. -/
def Silent (n : String) (c : Command Action) : Prop := ∀ a ∈ c.leaves, ¬ a.counts n

theorem HostOp.counts_of_forward {n : String} {op : HostOp} {m : Module} {r : Request}
    (forward : op.forward m = .ok r) (h : (Call.request r).counts n) :
    (Action.host op m).counts n := by
  unfold HostOp.forward at forward
  split at forward <;> cases forward <;> exact h

theorem ClusterOp.counts_of_forward {n : String} {op : ClusterOp} {m : Module}
    (h : (Call.request (op.forward m)).counts n) : (Action.cluster op m).counts n := by
  cases op <;> exact h

theorem Action.counts_of_forward {n : String} {a : Action} {r : Request}
    (forward : a.forward = some r) (h : (Call.request r).counts n) : a.counts n := by
  cases a with
  | host op m =>
    rw [Action.forward] at forward
    split at forward
    · rename_i made
      cases forward
      exact HostOp.counts_of_forward made h
    · cases forward
  | cluster op m =>
    cases forward
    exact ClusterOp.counts_of_forward h
  | recordRestart name => cases forward
  | resetRestarts name => cases forward

/-- To take a leaf back is no restart. -/
theorem Action.not_counts_of_backward {n : String} {a : Action} {r : Request}
    (backward : a.backward = some r) : ¬ (Call.request r).counts n := by
  unfold Action.backward at backward
  split at backward
  · unfold HostOp.backward at backward
    split at backward <;> cases backward <;> exact id
  · unfold ClusterOp.backward at backward
    split at backward <;> cases backward <;> exact id
  · cases backward
  · cases backward

/-! ### Quiet leaves -/

/-- The view of the restart state of a module and the record. -/
abbrev watched (states : σ → States) (n : String) (x : σ × List (Moment σ)) :
    Option RestartState × List (Moment σ) :=
  (stateAt states n x.1, x.2)

/-- What was added to the record does not count for the module, and what is stored of it stays as it
is all the time. -/
def Quiet (states : σ → States) (n : String) (v v' : Option RestartState × List (Moment σ)) :
    Prop :=
  v'.1 = v.1 ∧ ∃ es, v'.2 = v.2 ++ es ∧
    ∀ e ∈ es, ¬ e.call.counts n ∧ stateAt states n e.after = v.1

namespace Quiet

variable {states : σ → States} {n : String} {v v' v'' : Option RestartState × List (Moment σ)}

theorem refl (v : Option RestartState × List (Moment σ)) : Quiet states n v v :=
  ⟨rfl, [], (List.append_nil v.2).symm, fun _ h => nomatch h⟩

theorem trans (first : Quiet states n v v') (later : Quiet states n v' v'') :
    Quiet states n v v'' := by
  obtain ⟨state₁, es₁, record₁, quiet₁⟩ := first
  obtain ⟨state₂, es₂, record₂, quiet₂⟩ := later
  refine ⟨state₂.trans state₁, es₁ ++ es₂, by rw [record₂, record₁, List.append_assoc], ?_⟩
  intro e he
  rcases List.mem_append.1 he with he | he
  · exact quiet₁ e he
  · exact ⟨(quiet₂ e he).1, (quiet₂ e he).2.trans state₁⟩

end Quiet

instance (states : σ → States) (n : String) : IsPreorder (σ × List (Moment σ))
    fun x x' => Quiet states n (watched states n x) (watched states n x') where
  refl x := .refl (watched states n x)
  trans _ _ _ := .trans

namespace Host.Remembers

variable {h : Host σ} {states : σ → States} (remembers : h.Remembers states) {n : String}

include remembers

theorem watched_keeps (n : String) : h.recorded.toSignals.Keeps (watched states n) where
  pause x := by
    rw [watched, watched, ← (remembers.state_keeps n).pause x.1]
    rfl
  wait d x := by
    rw [watched, watched, ← (remembers.state_keeps n).wait d x.1]
    rfl

/-- A leaf that does not count for the module is quiet. -/
theorem leaf_quiet {a : Action} (silent : ¬ a.counts n) :
    (Action.behaviour h.recorded).Moves
      (fun x x' => Quiet states n (watched states n x) (watched states n x')) a := by
  have noted : ∀ {call : Call} {x : σ × List (Moment σ)} {s' : σ}, ¬ call.counts n →
      stateAt states n s' = stateAt states n x.1 → Quiet states n (watched states n x)
        (watched states n (s', x.2 ++ [⟨call, h.now x.1, s'⟩])) := by
    intro call x s' silent same
    refine ⟨same, _, rfl, fun e he => ?_⟩
    obtain rfl := List.mem_singleton.1 he
    exact ⟨silent, same⟩
  refine Action.moves (fun x => ?_) (fun r asked t x => ?_) (fun name e x => ?_) fun name e x => ?_
  · rw [(remembers.watched_keeps n).pause x]
    exact .refl _
  · have uncounted : ¬ (Call.request r).counts n := by
      rcases asked with forward | backward
      · exact fun counts => silent (Action.counts_of_forward forward counts)
      · exact Action.not_counts_of_backward backward
    exact noted uncounted (congrArg (NameMap.get? · n) (remembers.request t r x.1))
  · have other : ¬ n = name := fun same => silent (e ▸ same.symm)
    rw [h.recorded_record]
    refine noted (Ne.symm other) ?_
    rw [stateAt, (remembers.record name x.1).2, NameMap.get?_insert, if_neg other]
  · have other : ¬ n = name := fun same => silent (e ▸ same.symm)
    rw [h.recorded_reset]
    refine noted (Ne.symm other) ?_
    rw [stateAt, (remembers.reset name x.1).2, NameMap.get?_modify, if_neg other]

/-- A silent command is quiet, however often it is tried. -/
theorem does_quiet {r : Runner} {c : Command Action} (silent : Silent n c) {ok : Bool}
    {v v' : Option RestartState × List (Moment σ)}
    (does : r.Does (Action.behaviour h.recorded) (watched states n) c ok v v') :
    Quiet states n v v' := by
  obtain ⟨k, -, tried⟩ := does
  induction tried with
  | last attempt =>
    obtain ⟨x, rfl, -, rfl⟩ := attempt
    exact c.execute_moves (fun a ha => remembers.leaf_quiet (silent a ha)) .cycle x
  | again attempt _ ih =>
    obtain ⟨x, rfl, -, rfl⟩ := attempt
    have first := c.execute_moves (fun a ha => remembers.leaf_quiet (silent a ha)) .cycle x
    exact first.trans ih

/-! ### Leaves that count

Each makes one call when it is carried out, and none if it fails at the look at its token. -/

/-- A leaf is carried out: whether it succeeds, and the view before and after. -/
def Carried (h : Host σ) (states : σ → States) (n : String) (a : Action) (ok : Bool)
    (v v' : Option RestartState × List (Moment σ)) : Prop :=
  ∃ x, watched states n x = v ∧ (a.carryOut h.recorded .cycle x).1.isOk = ok ∧
    watched states n (a.carryOut h.recorded .cycle x).2 = v'

theorem attempted_leaf {a : Action} {ok : Bool} {v v' : Option RestartState × List (Moment σ)}
    (attempt : Attempted (Action.behaviour h.recorded) (watched states n) (.leaf a) ok v v') :
    ok = false ∧ v' = v ∨ Carried h states n a ok v v' := by
  obtain ⟨x, rfl, rfl, rfl⟩ := attempt
  simp only [Command.execute, Action.behaviour]
  rcases Action.execute_cases (remembers.watched_keeps n) .cycle a x with failed | ⟨x₁, still, e⟩
  · exact .inl failed
  · exact .inr ⟨x₁, still, by rw [e], by rw [e]⟩

theorem record_carried {ok : Bool} {v v' : Option RestartState × List (Moment σ)}
    (carried : Carried h states n (.recordRestart n) ok v v') : ok = true ∧
      ∃ e, e.call = .put n ∧ v'.2 = v.2 ++ [e] ∧ stateAt states n e.after = v'.1 ∧
        v'.1 = some (v.1.elim (.first e.time) (.record e.time)) := by
  obtain ⟨x, rfl, rfl, rfl⟩ := carried
  have unrecorded : (Action.record h.recorded n x).1 = (Action.record h n x.1).1 :=
    congrArg Prod.fst (Host.Over.record h.recorded_signals (h.recorded_over.putOrUpdate n) x)
  constructor
  · rw [Action.carryOut, unrecorded, (remembers.record n x.1).1]
    rfl
  · rw [Action.carryOut, h.recorded_record]
    refine ⟨_, rfl, rfl, rfl, ?_⟩
    rw [watched, stateAt, (remembers.record n x.1).2, NameMap.get?_insert, if_pos rfl]

theorem record_call {ok : Bool} {v v' : Option RestartState × List (Moment σ)}
    (attempt : Attempted (Action.behaviour h.recorded) (watched states n)
      (.leaf (.recordRestart n)) ok v v') :
    ok = false ∧ v' = v ∨ ∃ e, e.call = .put n ∧ v'.2 = v.2 ++ [e] ∧
      stateAt states n e.after = v'.1 ∧
      v'.1 = some (v.1.elim (.first e.time) (.record e.time)) :=
  (remembers.attempted_leaf attempt).imp_right fun carried => (remembers.record_carried carried).2

theorem restart_carried {t : Target} {m : Module} (own : m.name = n) {a : Action}
    (same : t.restart m = .leaf a) {ok : Bool} {v v' : Option RestartState × List (Moment σ)}
    (carried : Carried h states n a ok v v') :
    ∃ e, (e.call = .request (.restart n) ∨ e.call = .request (.rollout n)) ∧
      v'.2 = v.2 ++ [e] ∧ stateAt states n e.after = v'.1 ∧ v'.1 = v.1 := by
  subst own
  obtain ⟨x, rfl, -, rfl⟩ := carried
  unfold Target.restart at same
  split at same <;> cases same
  · exact ⟨⟨.request (.restart m.name), _, _⟩, .inl rfl, rfl, rfl,
      congrArg (NameMap.get? · m.name) (remembers.request .cycle _ x.1)⟩
  · exact ⟨⟨.request (.rollout m.name), _, _⟩, .inr rfl, rfl, rfl,
      congrArg (NameMap.get? · m.name) (remembers.request .cycle _ x.1)⟩

theorem restart_call {t : Target} {m : Module} (own : m.name = n) {ok : Bool}
    {v v' : Option RestartState × List (Moment σ)}
    (attempt : Attempted (Action.behaviour h.recorded) (watched states n) (t.restart m) ok v v') :
    ok = false ∧ v' = v ∨ ∃ e, (e.call = .request (.restart n) ∨ e.call = .request (.rollout n)) ∧
      v'.2 = v.2 ++ [e] ∧ stateAt states n e.after = v'.1 ∧ v'.1 = v.1 := by
  obtain ⟨a, same⟩ := t.restart_eq_leaf m
  rw [same] at attempt
  exact (remembers.attempted_leaf attempt).imp_right (remembers.restart_carried own same)

theorem reset_carried {ok : Bool} {v v' : Option RestartState × List (Moment σ)}
    (carried : Carried h states n (.resetRestarts n) ok v v') :
    ∃ e, e.call = .update n v.1.isSome ∧ v'.2 = v.2 ++ [e] ∧
      stateAt states n e.after = v'.1 ∧ v'.1 = v.1.map .reset := by
  obtain ⟨x, rfl, -, rfl⟩ := carried
  have found : (h.store.update n .reset x.1).1.isOk = (stateAt states n x.1).isSome := by
    have answer := congrArg Prod.fst (remembers.update n .reset x.1)
    simp only [Prod.map_fst, id, memoryStore] at answer
    rw [answer, stateAt]
    cases (states x.1).get? n <;> rfl
  rw [Action.carryOut, h.recorded_reset, found]
  refine ⟨_, rfl, rfl, rfl, ?_⟩
  rw [watched, stateAt, (remembers.reset n x.1).2, NameMap.get?_modify, if_pos rfl]

theorem reset_call {ok : Bool} {v v' : Option RestartState × List (Moment σ)}
    (attempt : Attempted (Action.behaviour h.recorded) (watched states n)
      (.leaf (.resetRestarts n)) ok v v') :
    ok = false ∧ v' = v ∨ ∃ e, e.call = .update n v.1.isSome ∧ v'.2 = v.2 ++ [e] ∧
      stateAt states n e.after = v'.1 ∧ v'.1 = v.1.map .reset :=
  (remembers.attempted_leaf attempt).imp_right remembers.reset_carried

omit remembers in
/-- To take back what notes something is to do nothing. -/
theorem undone_record {v v' : Option RestartState × List (Moment σ)}
    (back : Undone (Action.behaviour h.recorded) (watched states n) (.leaf (.recordRestart n))
      v v') : v' = v := by
  obtain ⟨x, rfl, rfl⟩ := back
  rfl

end Host.Remembers

end Steward
