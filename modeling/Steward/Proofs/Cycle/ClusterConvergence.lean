/-
# What a run brings about in a cluster

In a cluster a module is applied, deleted or scaled, and its declared status is what it was last
applied or scaled to. After a run in which everything succeeded the next plan neither takes a module
away nor brings one, and it changes the status of a module only if the run already was to make that
status unknown (`Host.IsCluster.next_changes`). For there is no such request: an update to an
unknown status is a group without children, which succeeds and leaves the module as it is, and so it
is planned over and over (`not_converged_to_unknown`).

The proof looks at one name and at its declaration only. A command that fails leaves the declaration
alone, so of the attempts at a command that succeeds in the end only the last one counts.

Key definitions: `Request.onDeclared`, `declaredAt`, `Host.IsCluster`.
Key theorems: `Host.IsDevice.isCluster`, `Host.IsCluster.agree_after`,
`Host.IsCluster.next_changes`.
-/
import Steward.Proofs.Cycle.Convergence
import Steward.Proofs.Restart.Decision

namespace Steward

variable {σ : Type}

/-! ### Clusters -/

/-- What a request makes of the declaration of its module when it is carried out. -/
def Request.onDeclared : Request → Option Module → Option Module
  | .create m _, _ | .apply m _ _, _ => some m
  | .remove _, _ | .delete _, _ => none
  | .setStatus _ status, v => v.map fun m => { m with status }
  | .scale _ 0, v => v.map fun m => { m with status := .stopped }
  | .scale _ (_ + 1), v => v.map fun m => { m with status := .running }
  | .pull .., v | .start _, v | .stop _, v | .restart _, v | .rollout _, v => v

/-- The view of what is declared under a name. -/
abbrev declaredAt (table : σ → Table) (n : String) (s : σ) : Option Module :=
  (entryAt table n s).map Entry.module

/-- A host on which what is declared is a matter of the requests that succeed, each for its own
module. What is observed may change at any time. -/
structure Host.IsCluster (h : Host σ) (table : σ → Table) : Prop where
  keeps : ∀ n, h.toSignals.Keeps (declaredAt table n)
  done : ∀ {t r s s'}, h.request t r s = (.ok (), s') → ∀ n,
    declaredAt table n s' =
      if n = r.module then r.onDeclared (declaredAt table n s) else declaredAt table n s
  failed : ∀ {t r s e s'}, h.request t r s = (.error e, s') → ∀ n,
    declaredAt table n s' = declaredAt table n s
  get : ∀ k s n, declaredAt table n (h.store.get k s).2 = declaredAt table n s
  update : ∀ k f s n, declaredAt table n (h.store.update k f s).2 = declaredAt table n s
  putOrUpdate : ∀ k v f s n,
    declaredAt table n (h.store.putOrUpdate k v f s).2 = declaredAt table n s

theorem Request.map_module_onEntry (now : Instant) (r : Request) (v : Option Entry) :
    (r.onEntry now v).map Entry.module = r.onDeclared (v.map Entry.module) := by
  cases r with
  | apply m =>
    simp only [onEntry, onDeclared, Option.map_some]
    split <;> rfl
  | scale name k => cases k <;> cases v <;> rfl
  | _ => cases v <;> rfl

/-- What a request makes of a declaration has the name of the request or that of the declaration. -/
theorem Request.name_onDeclared {r : Request} {v : Option Module} {m : Module}
    (h : r.onDeclared v = some m) : m.name = r.module ∨ ∃ m', v = some m' ∧ m.name = m'.name := by
  have entry := r.map_module_onEntry .epoch (v.map fun m => ⟨m, none⟩)
  rw [Option.map_map, show (Entry.module ∘ fun m => ⟨m, none⟩) = id from rfl, Option.map_id, id,
    h] at entry
  obtain ⟨e, made, rfl⟩ := Option.map_eq_some_iff.1 entry
  refine (Request.name_onEntry made).imp_right ?_
  rintro ⟨e', there, name⟩
  obtain ⟨m', rfl, rfl⟩ := Option.map_eq_some_iff.1 there
  exact ⟨m', rfl, name⟩

theorem Table.named_iff {t : Table} :
    t.Named ↔ ∀ n m, (t.get? n).map Entry.module = some m → m.name = n := by
  simp only [Named, Option.map_eq_some_iff]
  constructor
  · rintro named n m ⟨e, there, rfl⟩
    exact named n e there
  · intro named n e there
    exact named n e.module ⟨e, there, rfl⟩

/-- A device is a cluster. -/
theorem Host.IsDevice.isCluster {h : Host σ} {table : σ → Table} (device : h.IsDevice table) :
    h.IsCluster table where
  keeps n :=
    { pause := fun s => congrArg (Option.map Entry.module) ((device.entry_keeps n).pause s)
      wait := fun d s => congrArg (Option.map Entry.module) ((device.entry_keeps n).wait d s) }
  done := by
    intro t r s s' e n
    rw [declaredAt, entryAt, device.done e, Table.get?_carryOut]
    by_cases own : n = r.module
    · rw [if_pos own, if_pos own, Request.map_module_onEntry]
    · rw [if_neg own, if_neg own]
  failed e n := by rw [declaredAt, entryAt, device.failed e]
  get k s n := by rw [declaredAt, entryAt, device.get]
  update k f s n := by rw [declaredAt, entryAt, device.update]
  putOrUpdate k v f s n := by rw [declaredAt, entryAt, device.putOrUpdate]

/-- All that is to change under a name is the declared status, and that is to become unknown. -/
def ModuleSet.TurnsUnknown (desired current : ModuleSet) (n : String) : Prop :=
  ∃ old new, current.get? n = some old ∧ desired.get? n = some new ∧
    old.differsOnlyInStatus new = true ∧ new.status = .unknown

theorem ModuleSet.turnsUnknown_iff {desired current : ModuleSet} {n : String} :
    desired.TurnsUnknown current n ↔
      ∃ old new, desired.fate current n = .adjusted old new ∧ new.status = .unknown := by
  simp only [TurnsUnknown, fate_eq_adjusted_iff]
  constructor
  · rintro ⟨old, new, there, wanted, only, unknown⟩
    exact ⟨old, new, ⟨wanted, there, only⟩, unknown⟩
  · rintro ⟨old, new, ⟨wanted, there, only⟩, unknown⟩
    exact ⟨old, new, there, wanted, only, unknown⟩

namespace Host.IsCluster

variable {h : Host σ} {table : σ → Table} (cluster : h.IsCluster table) {n : String}

include cluster

/-- A leaf keeps to whatever unchanged declarations and its requests keep to. -/
theorem leaf_moves {R : σ → σ → Prop} [IsPreorder σ R] {a : Action}
    (same : ∀ s s', (∀ n, declaredAt table n s' = declaredAt table n s) → R s s')
    (acts : ∀ r s s', a.forward = some r ∨ a.backward = some r →
      (∀ n, declaredAt table n s' =
        if n = r.module then r.onDeclared (declaredAt table n s) else declaredAt table n s) →
      R s s') : (Action.behaviour h).Moves R a := by
  refine Action.moves (fun s => same _ _ fun n => (cluster.keeps n).pause s)
    (fun r asked t s => ?_) (fun name _ s => same _ _ fun n => ?_)
    fun name _ s => same _ _ fun n => ?_
  · cases e : h.request t r s with
    | mk answer s' =>
      cases answer with
      | ok => exact acts r s s' asked (cluster.done e)
      | error => exact same s s' (cluster.failed e)
  · rw [Action.snd_record]
    exact cluster.putOrUpdate name _ _ s n
  · rw [Action.snd_reset]
    exact cluster.update name _ s n

/-- A command of which no leaf changes the declaration leaves it alone, however often it is tried. -/
theorem does_silent {r : Runner} {c : Command Action}
    (silent : ∀ a ∈ c.leaves, Labelled.module a = n →
      ∀ r, a.forward = some r ∨ a.backward = some r → ∀ v, r.onDeclared v = v)
    {ok : Bool} {v v' : Option Module}
    (does : r.Does (Action.behaviour h) (declaredAt table n) c ok v v') : v' = v := by
  have moves : ∀ a ∈ c.leaves,
      (Action.behaviour h).Moves (fun s s' => declaredAt table n s' = declaredAt table n s) a := by
    intro a ha
    refine cluster.leaf_moves (fun s s' same => same n) fun r s s' asked acts => ?_
    rw [acts n]
    by_cases own : n = r.module
    · have named : Labelled.module a = n := (own.trans (Action.module_of_asked asked)).symm
      rw [if_pos own, silent a ha named r asked]
    · rw [if_neg own]
  obtain ⟨k, -, tried⟩ := does
  refine tried.unchanged fun ok v v' attempt => ?_
  obtain ⟨s, rfl, -, rfl⟩ := attempt
  exact c.execute_moves moves .cycle s

/-- Commands about other modules leave the declaration alone. -/
theorem does_frame {r : Runner} {c : Command Action} (other : ∀ a ∈ c.leaves, Labelled.module a ≠ n)
    {ok : Bool} {v v' : Option Module}
    (does : r.Does (Action.behaviour h) (declaredAt table n) c ok v v') : v' = v :=
  cluster.does_silent (fun a ha own => absurd own (other a ha)) does

/-! ### Commands -/

/-- A leaf fails and changes nothing, or its request acts on the declaration. -/
theorem attempted_op {op : ClusterOp} {m : Module} (own : m.name = n) {ok : Bool}
    {v v' : Option Module}
    (attempt : Attempted (Action.behaviour h) (declaredAt table n) (.leaf (.cluster op m)) ok v v') :
    ok = false ∧ v' = v ∨ ok = true ∧ v' = (op.forward m).onDeclared v := by
  obtain ⟨s, rfl, rfl, rfl⟩ := attempt
  simp only [Command.execute, Action.behaviour]
  rcases Action.execute_cases (cluster.keeps n) .cycle (.cluster op m) s with
    failed | ⟨s₁, still, e⟩
  · exact .inl failed
  · rw [e, Action.carryOut, ← still]
    have named : n = (op.forward m).module := ((ClusterOp.module_forward m op).trans own).symm
    cases made : h.request .cycle (op.forward m) s₁ with
    | mk answer s₂ =>
      cases answer with
      | ok => exact .inr ⟨rfl, by rw [cluster.done made n, if_pos named]⟩
      | error => exact .inl ⟨rfl, cluster.failed made n⟩

/-- Of the attempts at a leaf that succeeds in the end only the last one counts. -/
theorem does_op {r : Runner} {op : ClusterOp} {m : Module} (own : m.name = n)
    {v v' : Option Module}
    (does : r.Does (Action.behaviour h) (declaredAt table n) (.leaf (.cluster op m)) true v v') :
    v' = (op.forward m).onDeclared v := by
  obtain ⟨k, -, tried⟩ := does
  have last := tried.once fun v v' failed =>
    ((cluster.attempted_op own failed).resolve_right fun done => nomatch done.1).2
  exact ((cluster.attempted_op own last).resolve_left fun failed => nomatch failed.1).2

/-- So it is for a group of one leaf. -/
theorem does_group_op {r : Runner} {kind : CommandKind} {name : String} {op : ClusterOp}
    {m : Module} (own : m.name = n) {v v' : Option Module}
    (does : r.Does (Action.behaviour h) (declaredAt table n)
      (.group kind name [.leaf (.cluster op m)]) true v v') :
    v' = (op.forward m).onDeclared v := by
  obtain ⟨k, -, tried⟩ := does
  have last := tried.once fun v v' failed => by
    cases failed.together with
    | fails first =>
      exact ((cluster.attempted_op own first).resolve_right fun done => nomatch done.1).2
    | backs _ nothing => cases nothing
  cases last.together with
  | goes first later =>
    cases later
    exact ((cluster.attempted_op own first).resolve_left fun failed => nomatch failed.1).2

section

variable {p : Planner} (place : p.target.place = .cluster) {r : Runner} {ctx : PlanContext}
  {now : Instant} {told : RestartState} {m : Module} (own : m.name = n) {v v' : Option Module}

include place own

theorem does_create
    (does : r.Does (Action.behaviour h) (declaredAt table n) (ctx.bring p.target m) true v v') :
    v' = some m := by
  simp only [PlanContext.bring, Target.create, place] at does
  exact cluster.does_op own does

theorem does_remove
    (does : r.Does (Action.behaviour h) (declaredAt table n) (p.target.remove m) true v v') :
    v' = none := by
  simp only [Target.remove, place] at does
  exact cluster.does_op own does

/-- An update brings about the declared status, unless that is to be unknown: then it does nothing.
-/
theorem does_update {old : Module}
    (does : r.Does (Action.behaviour h) (declaredAt table n) (p.target.update old m) true v v') :
    m.status = .unknown ∧ v' = v ∨
      m.status ≠ .unknown ∧ v' = v.map fun m' => { m' with status := m.status } := by
  simp only [Target.update, place] at does
  cases status : m.status with
  | running =>
    rw [status] at does
    exact .inr ⟨by decide, cluster.does_group_op own does⟩
  | stopped =>
    rw [status] at does
    exact .inr ⟨by decide, cluster.does_group_op own does⟩
  | unknown =>
    rw [status] at does
    refine .inl ⟨rfl, cluster.does_silent (fun a ha => ?_) does⟩
    simp [Command.leaves, Command.leavesOf] at ha

/-- What is done for a module that is to stay does not change its declaration. -/
theorem does_due {c : Command Action} (due : Due p now m told c) (there : v.map Module.status =
    some m.status)
    (does : r.Does (Action.behaviour h) (declaredAt table n) c true v v') : v' = v := by
  cases due with
  | restart =>
    simp only [Target.restart, place] at does
    refine cluster.does_silent (fun a ha _ r asked v => ?_) does
    simp only [Command.leaves, Command.leavesOf, List.append_nil, List.cons_append,
      List.nil_append, List.mem_pair] at ha
    rcases ha with rfl | rfl
    · rcases asked with asked | asked <;> cases asked
    · rcases asked with asked | asked <;> cases asked
      rfl
  | stop decision =>
    simp only [Target.stop, place] at does
    rw [cluster.does_op own does]
    obtain ⟨m', rfl, status⟩ := Option.map_eq_some_iff.1 there
    have stopped : m'.status = .stopped := status.trans (p.policy.stopped_of_decision decision)
    exact congrArg some (by rw [← stopped])
  | reset =>
    refine cluster.does_silent (fun a ha _ r asked v => ?_) does
    rw [List.mem_singleton.1 ha] at asked
    rcases asked with asked | asked <;> cases asked

end

/-! ### One name -/

open ModuleSet (Agree TurnsUnknown)

section

variable {p : Planner} (place : p.target.place = .cluster) {r : Runner} {ctx : PlanContext}
  {now : Instant}

include place

/-- What the restart policy asks for a module that is to stay does not change its declaration. -/
theorem declaration_kept {m : Module} {told : RestartState} {v v' : Option Module}
    (own : m.name = n) (there : v.map Module.status = some m.status)
    (chained : Chained (r.Does (Action.behaviour h) (declaredAt table n))
      (p.policyCommand m told now).toList v v') : v' = v := by
  cases asked : p.policyCommand m told now with
  | none =>
    rw [asked] at chained
    exact chained
  | some c =>
    rw [asked] at chained
    obtain ⟨v₁, does, rfl⟩ := chained
    exact cluster.does_due place own (Due.iff_policyCommand.2 asked) there does

/-- After commands that succeed a module is as desired, unless all that was to change is its status,
to unknown: then its declaration is what it was. -/
theorem agree_of_chained {told : RestartState} {desired current : ModuleSet} {v : Option Entry}
    {v' : Option Module} (shown : current.get? n = v.map Entry.report)
    (chained : Chained (r.Does (Action.behaviour h) (declaredAt table n))
      (p.commandsFor ctx now told (desired.fate current n)) (v.map Entry.module) v') :
    ¬ TurnsUnknown desired current n ∧ Agree (desired.get? n) v' ∨
      TurnsUnknown desired current n ∧ v' = v.map Entry.module := by
  rw [ModuleSet.turnsUnknown_iff]
  cases hf : desired.fate current n with
  | absent =>
    obtain ⟨undesired, absent⟩ := ModuleSet.fate_eq_absent_iff.1 hf
    rw [hf] at chained
    have nothing : v = none := Option.map_eq_none_iff.1 (shown.symm.trans absent)
    have same : v' = v.map Entry.module := chained
    simp [Agree, undesired, same, nothing]
  | gone old =>
    obtain ⟨undesired, there⟩ := ModuleSet.fate_eq_gone_iff.1 hf
    rw [hf] at chained
    obtain ⟨v₁, does, rfl⟩ := chained
    simp [Agree, undesired, cluster.does_remove place (current.name_of_get? there) does]
  | added new =>
    obtain ⟨wanted, -⟩ := ModuleSet.fate_eq_added_iff.1 hf
    rw [hf] at chained
    obtain ⟨v₁, does, rfl⟩ := chained
    simp [Agree, wanted, cluster.does_create place (desired.name_of_get? wanted) does,
      Module.same_refl]
  | adjusted old new =>
    obtain ⟨wanted, there, only⟩ := ModuleSet.fate_eq_adjusted_iff.1 hf
    obtain ⟨e, rfl, rfl⟩ := Option.map_eq_some_iff.1 (shown.symm.trans there)
    rw [hf] at chained
    obtain ⟨v₁, does, rfl⟩ := chained
    rcases cluster.does_update place (desired.name_of_get? wanted) does with
      ⟨unknown, same⟩ | ⟨known, changed⟩
    · exact .inr ⟨⟨_, new, rfl, unknown⟩, same⟩
    · refine .inl ⟨?_, ?_⟩
      · rintro ⟨_, _, e, unknown⟩
        cases e
        exact known unknown
      · rw [changed, wanted]
        exact Module.same_of_differsOnlyInStatus only
  | replaced old new =>
    obtain ⟨wanted, -⟩ := ModuleSet.fate_eq_replaced_iff.1 hf
    rw [hf] at chained
    obtain ⟨v₁, -, v₂, does, rfl⟩ := chained
    simp [Agree, wanted, cluster.does_create place (desired.name_of_get? wanted) does,
      Module.same_refl]
  | kept m =>
    obtain ⟨there, new, wanted, same⟩ := ModuleSet.fate_eq_kept_iff.1 hf
    obtain ⟨e, rfl, rfl⟩ := Option.map_eq_some_iff.1 (shown.symm.trans there)
    rw [hf] at chained
    have kept := cluster.declaration_kept place (current.name_of_get? there) rfl chained
    refine .inl ⟨by simp, ?_⟩
    rw [kept, wanted]
    exact same

end

/-! ### All names -/

theorem policyCommands_keeps (p : Planner) (now : Instant) (n : String) (ms : List Module) (s : σ) :
    declaredAt table n (p.policyCommands h.store now ms s).2 = declaredAt table n s :=
  Planner.policyCommands_moves (R := fun s s' => declaredAt table n s' = declaredAt table n s)
    (fun k s => cluster.get k s n) p now ms s

section

variable {p : Planner} {r : Runner} {ctx : PlanContext} {now : Instant}
  {desired current : ModuleSet} {s s₁ s₂ : σ} {plan : Plan Action} {result : CycleResult}
  (shows : (table s).Shows current)
  (planned : p.plan h.store desired current ctx now s = (.ok plan, s₁))
  (ran : r.run h.toSignals (Action.behaviour h) plan s₁ = (result, s₂))

include shows planned ran

/-- After a cycle the table shows a set again: every module is still under its own name. -/
theorem exists_shown : ∃ after, (table s₂).Shows after := by
  have : IsPreorder σ fun s s' => (table s).Named → (table s').Named :=
    { refl := fun _ => id, trans := fun _ _ _ h₁ h₂ => h₂ ∘ h₁ }
  have same : ∀ s s', (∀ n, declaredAt table n s' = declaredAt table n s) →
      (table s).Named → (table s').Named := by
    intro s s' unchanged named
    rw [Table.named_iff] at named ⊢
    intro n m there
    exact named n m ((unchanged n).symm.trans there)
  have named₁ : (table s₁).Named := by
    refine same s s₁ (fun n => ?_) shows.named
    rw [(Planner.plan_ok planned).2.2, cluster.policyCommands_keeps]
  have named₂ := r.run_moves (R := fun s s' => (table s).Named → (table s').Named)
    (fun s => same _ _ fun n => (cluster.keeps n).pause s)
    (fun d s => same _ _ fun n => (cluster.keeps n).wait d s)
    (fun c _ a _ => cluster.leaf_moves same fun r s s' _ acts named => by
      rw [Table.named_iff] at named ⊢
      intro n m there
      have there : declaredAt table n s' = some m := there
      rw [acts n] at there
      split at there
      · rename_i own
        rcases Request.name_onDeclared there with name | ⟨m', before, name⟩
        · rw [name, own]
        · rw [name, named n m' before]
      · exact named n m there)
    ran named₁
  exact ⟨_, Table.shows_shown named₂⟩

variable (place : p.target.place = .cluster) (success : result.isSuccess = true)

include place success

/-- If everything succeeded, a module is as desired, unless all that was to change is its status, to
unknown: then its declaration is what it was. -/
theorem agree_after (n : String) :
    ¬ TurnsUnknown desired current n ∧
        Agree (desired.get? n) ((entryAt table n s₂).map Entry.report) ∨
      TurnsUnknown desired current n ∧ declaredAt table n s₂ = declaredAt table n s := by
  have chained := Planner.chained_of_name (cluster.keeps n)
    (fun _ other _ _ _ does => cluster.does_frame other does) planned ran success
  rw [(Planner.plan_ok planned).2.2, cluster.policyCommands_keeps] at chained
  rw [IsDevice.agree_report]
  exact cluster.agree_of_chained place (shows n) chained

/-- So the status that was to become unknown is still to become it, and nothing else is left. -/
theorem fate_after {after : ModuleSet} (shown : (table s₂).Shows after) (n : String) :
    ¬ TurnsUnknown desired current n ∧
        (desired.fate after n = .absent ∨ ∃ m, desired.fate after n = .kept m) ∨
      TurnsUnknown desired current n ∧ ∃ old new, desired.fate after n = .adjusted old new := by
  rcases cluster.agree_after shows planned ran place success n with
    ⟨known, agree⟩ | ⟨unknown, unchanged⟩
  · rw [← shown n] at agree
    exact .inl ⟨known, ModuleSet.fate_of_agree agree⟩
  · refine .inr ⟨unknown, ?_⟩
    obtain ⟨old, new, there, wanted, only, -⟩ := unknown
    obtain ⟨e, before, rfl⟩ := Option.map_eq_some_iff.1 ((shows n).symm.trans there)
    rw [declaredAt, declaredAt, entryAt, entryAt, before] at unchanged
    obtain ⟨e', still, same⟩ := Option.map_eq_some_iff.1 unchanged
    have seen : after.get? n = some e'.report := by
      rw [shown n, still]
      rfl
    have differs : e'.report.differsOnlyInStatus new = true := by
      rw [Entry.report, same]
      exact only
    exact ⟨e'.report, new, ModuleSet.fate_eq_adjusted_iff.2 ⟨wanted, seen, differs⟩⟩

/-- **What is planned after a success.** If everything succeeded in a run on a cluster, there is a
next plan for the same modules. In it no module goes and none comes, and the status of a module is to
change exactly if it was to become unknown before. -/
theorem next_changes {κ : Type} (st : StateStore κ) (later : Instant) (x : κ) :
    ∃ after next x', (table s₂).Shows after ∧
      p.plan st desired after ctx later x = (.ok next, x') ∧
      (∀ c ∈ next.commands, c.kind ≠ .remove ∧ c.kind ≠ .create) ∧
      ∀ n, (∃ c ∈ next.commands, c.module = n ∧ c.kind = .update) ↔
        TurnsUnknown desired current n := by
  obtain ⟨after, shown⟩ := cluster.exists_shown shows planned ran
  have fates := cluster.fate_after shows planned ran place success shown
  have valid := (Planner.plan_ok planned).1
  refine ⟨after, _, _, shown, p.plan_eq st desired after ctx later x valid, ?_, fun n => ?_⟩
  · intro c hc
    have called := p.mem_commandsFor st desired after ctx later x hc
    rcases fates c.module with ⟨-, absent | ⟨m, kept⟩⟩ | ⟨-, old, new, adjusted⟩
    · simp [absent, Planner.commandsFor] at called
    · rw [kept, Planner.commandsFor, Option.mem_toList] at called
      rcases (Due.iff_policyCommand.2 called).kind with kind | kind | kind <;> simp [kind]
    · rw [adjusted, Planner.commandsFor, List.mem_singleton] at called
      simp [called]
  · constructor
    · rintro ⟨c, hc, rfl, kind⟩
      have called := p.mem_commandsFor st desired after ctx later x hc
      rcases fates c.module with ⟨-, absent | ⟨m, kept⟩⟩ | ⟨unknown, -⟩
      · simp [absent, Planner.commandsFor] at called
      · rw [kept, Planner.commandsFor, Option.mem_toList] at called
        rcases (Due.iff_policyCommand.2 called).kind with other | other | other <;>
          rw [kind] at other <;> cases other
      · exact unknown
    · intro unknown
      rcases fates n with ⟨known, -⟩ | ⟨-, old, new, adjusted⟩
      · exact absurd unknown known
      · have filtered := p.filter_commands st desired after ctx later x n
        rw [adjusted, Planner.commandsFor] at filtered
        have mem : p.target.update old new ∈
            (p.blocks st desired after ctx later x).filter (·.module == n) := by
          rw [filtered]
          exact List.mem_singleton_self _
        obtain ⟨there, named⟩ := List.mem_filter.1 mem
        exact ⟨_, there, by simpa using named, p.target.kind_update new old⟩

end

end Host.IsCluster

/-! Samples in which the status of one module is to change. -/

namespace Planner.Sample

/-- A planner for a cluster. -/
def clusterPlanner : Planner := { target := { place := .cluster } }

end Planner.Sample

open Planner in
theorem next_changes_sample :
    ∃ plan s₁ result s₂,
      Sample.clusterPlanner.plan (Rehearsal.steady .epoch).store (Sample.turned .stopped)
        Sample.going {} .epoch { table := Sample.going.table } = (.ok plan, s₁) ∧
      ({} : Runner).run (Rehearsal.steady .epoch).toSignals
        (Action.behaviour (Rehearsal.steady .epoch)) plan s₁ = (result, s₂) ∧
      result.isSuccess = true ∧
      ∃ after next s₃, s₂.table.Shows after ∧
        Sample.clusterPlanner.plan (Rehearsal.steady .epoch).store (Sample.turned .stopped) after {}
          Sample.later s₂ = (.ok next, s₃) ∧
        (∀ c ∈ next.commands, c.kind ≠ .remove ∧ c.kind ≠ .create) ∧
        ∀ n, (∃ c ∈ next.commands, c.module = n ∧ c.kind = .update) ↔
          (Sample.turned .stopped).TurnsUnknown Sample.going n := by
  let start : Rehearsal := { table := Sample.going.table }
  have planned := Sample.clusterPlanner.plan_eq (Rehearsal.steady .epoch).store
    (Sample.turned .stopped) Sample.going {} .epoch start (by decide)
  rw [Sample.blocks_turned _ _ _ (by decide)] at planned
  have success : (({} : Runner).run (Rehearsal.steady .epoch).toSignals
      (Action.behaviour (Rehearsal.steady .epoch))
        ⟨[Sample.clusterPlanner.target.update (Sample.running "a" "a:1")
          { Sample.running "a" "a:1" with status := .stopped }]⟩ start).1.isSuccess = true := by
    decide
  have changes := (Rehearsal.steady_isDevice .epoch).isCluster.next_changes
    Sample.going.shows_table planned (r := {}) rfl rfl success (Rehearsal.steady .epoch).store
    Sample.later
  exact ⟨_, _, _, _, planned, rfl, success, changes _⟩

open Planner in
/-- A status that is to become unknown in a cluster is not brought about by a run that succeeds: the
next plan has the update again. -/
theorem not_converged_to_unknown :
    (Rehearsal.steady .epoch).IsCluster Rehearsal.table ∧
    ∃ plan s₁ result s₂ next s₃,
      Sample.clusterPlanner.plan (Rehearsal.steady .epoch).store (Sample.turned .unknown)
        Sample.going {} .epoch { table := Sample.going.table } = (.ok plan, s₁) ∧
      ({} : Runner).run (Rehearsal.steady .epoch).toSignals
        (Action.behaviour (Rehearsal.steady .epoch)) plan s₁ = (result, s₂) ∧
      result.isSuccess = true ∧ s₂.table.Shows Sample.going ∧
      Sample.clusterPlanner.plan (Rehearsal.steady .epoch).store (Sample.turned .unknown)
        Sample.going {} .epoch s₂ = (.ok next, s₃) ∧
      ∃ c ∈ next.commands, c.kind = .update := by
  let start : Rehearsal := { table := Sample.going.table }
  have blocks : ∀ s, Sample.clusterPlanner.blocks (Rehearsal.steady .epoch).store
      (Sample.turned .unknown) Sample.going {} .epoch s = [.group .update "a" []] := fun s =>
    Sample.blocks_turned _ _ s (by decide)
  have planned : ∀ s, _ := fun s => Sample.clusterPlanner.plan_eq (Rehearsal.steady .epoch).store
    (Sample.turned .unknown) Sample.going {} .epoch s (by decide)
  simp only [blocks] at planned
  refine ⟨(Rehearsal.steady_isDevice .epoch).isCluster, _, _, _, _, _, _, planned start, rfl,
    by decide, Sample.going.shows_table, planned _, ?_⟩
  exact ⟨_, List.mem_singleton_self _, rfl⟩

end Steward
