/-
# What commands do to an entry

A host is a device if its successful requests act on a table, its failed ones change nothing, the
requests of a rollback succeed, and nothing else touches the table (`Host.IsDevice`). Every request
is about one module, so the table falls apart into entries: what a command does is what it does to
the entry of its module (`Attempted`), and the other entries are left alone
(`Host.IsDevice.does_frame`).

An attempt at a planned command that fails leaves the entry as it was. There is one exception: a
module that was put in the place of another and did not start is taken away again, and the other is
not put back.

Key definitions: `Host.IsDevice`, `Request.onEntry`, `Entry.landed`, `Entry.adjusted`.
Key theorems: `Table.get?_carryOut`, `Host.IsDevice.leaf_moves`, `Host.IsDevice.does_frame`,
`Host.IsDevice.does_remove`, `Host.IsDevice.does_create`, `Host.IsDevice.does_update`,
`Host.IsDevice.does_restart`.
-/
import Steward.Command.Target
import Steward.Device.Table
import Steward.Proofs.Cycle.Course
import Steward.Proofs.NameMap

namespace Steward

variable {σ : Type}

/-! ### Requests -/

/-- What a request makes of the entry of its module when it is carried out. -/
def Request.onEntry (now : Instant) : Request → Option Entry → Option Entry
  | .pull .., v => v
  | .create m _, _ => some (.placed m)
  | .start _, v | .restart _, v | .rollout _, v => v.map (.started now)
  | .stop _, v => v.map .stopped
  | .remove _, _ | .delete _, _ => none
  | .setStatus _ status, v => v.map (.declared status)
  | .apply m _ _, _ =>
    some (if m.status = .running then (Entry.placed m).started now else .placed m)
  | .scale _ 0, v => v.map fun e => (e.declared .stopped).stopped
  | .scale _ (_ + 1), v => v.map fun e => (e.declared .running).started now

/-- A request acts on the entry of its module and no other. -/
theorem Table.get?_carryOut (now : Instant) (t : Table) (r : Request) (n : String) :
    (t.carryOut now r).get? n = if n = r.module then r.onEntry now (t.get? n) else t.get? n := by
  by_cases own : n = r.module
  · rw [if_pos own]
    unfold carryOut
    split <;> simp only [Request.module] at own <;>
      simp [Request.onEntry, NameMap.get?_insert, NameMap.get?_modify, NameMap.get?_erase, own]
  · rw [if_neg own]
    unfold carryOut
    split <;> simp only [Request.module] at own <;>
      simp [NameMap.get?_insert, NameMap.get?_modify, NameMap.get?_erase, own]

theorem HostOp.module_forward {m : Module} {op : HostOp} {r : Request}
    (h : op.forward m = .ok r) : r.module = m.name := by
  unfold HostOp.forward at h
  split at h <;> cases h <;> rfl

theorem HostOp.module_backward {m : Module} {op : HostOp} {r : Request}
    (h : op.backward m = some r) : r.module = m.name := by
  unfold HostOp.backward at h
  split at h <;> cases h <;> rfl

theorem ClusterOp.module_forward (m : Module) (op : ClusterOp) :
    (op.forward m).module = m.name := by
  cases op <;> rfl

theorem ClusterOp.module_backward {m : Module} {op : ClusterOp} {r : Request}
    (h : op.backward m = some r) : r.module = m.name := by
  unfold ClusterOp.backward at h
  split at h <;> cases h <;> rfl

theorem Action.module_backward {a : Action} {r : Request} (h : a.backward = some r) :
    r.module = Labelled.module a := by
  cases a with
  | host op m => exact HostOp.module_backward h
  | cluster op m => exact ClusterOp.module_backward h
  | recordRestart name => cases h
  | resetRestarts name => cases h

theorem Action.module_forward {a : Action} {r : Request} (h : a.forward = some r) :
    r.module = Labelled.module a := by
  cases a with
  | host op m =>
    rw [Action.forward] at h
    split at h
    · rename_i made
      cases h
      exact HostOp.module_forward made
    · cases h
  | cluster op m =>
    cases h
    exact ClusterOp.module_forward m op
  | recordRestart name => cases h
  | resetRestarts name => cases h

/-- What is asked of the runtime for a leaf is about the leaf's module. -/
theorem Action.module_of_asked {a : Action} {r : Request}
    (h : a.forward = some r ∨ a.backward = some r) : r.module = Labelled.module a :=
  h.elim module_forward module_backward

namespace Entry

/-- A module that was brought, and started if it is to run. -/
def landed (now : Instant) (m : Module) : Entry :=
  if m.status = .running then (placed m).started now else placed m

/-- The module after its declared status was changed and it was started or stopped to fit. -/
def adjusted (status : Status) (now : Instant) (e : Entry) : Entry :=
  match status with
  | .running => (e.declared .running).started now
  | .stopped => (e.declared .stopped).stopped
  | .unknown => e.declared .unknown

end Entry

/-! ### Devices -/

/-- A host whose requests act on a table, where those of a rollback succeed, and on which nothing
else touches the table. -/
structure Host.IsDevice (h : Host σ) (table : σ → Table) : Prop where
  keeps : h.toSignals.Keeps table
  done : ∀ {t r s s'}, h.request t r s = (.ok (), s') →
    table s' = (table s).carryOut (h.now s) r
  failed : ∀ {t r s e s'}, h.request t r s = (.error e, s') → table s' = table s
  fresh : ∀ r s, (h.request .fresh r s).1 = .ok ()
  get : ∀ k s, table (h.store.get k s).2 = table s
  update : ∀ k f s, table (h.store.update k f s).2 = table s
  putOrUpdate : ∀ k v f s, table (h.store.putOrUpdate k v f s).2 = table s

/-- The view of the entry under a name. -/
abbrev entryAt (table : σ → Table) (n : String) (s : σ) : Option Entry := (table s).get? n

namespace Host.IsDevice

variable {h : Host σ} {table : σ → Table} (device : h.IsDevice table) {n : String}

include device

theorem entry_keeps (n : String) : h.toSignals.Keeps (entryAt table n) where
  pause s := congrArg (NameMap.get? · n) (device.keeps.pause s)
  wait d s := congrArg (NameMap.get? · n) (device.keeps.wait d s)

theorem record_keeps (name : String) (s : σ) : table (Action.record h name s).2 = table s := by
  rw [Action.snd_record, device.putOrUpdate]

theorem reset_keeps (name : String) (s : σ) : table (Action.reset h name s).2 = table s := by
  rw [Action.snd_reset, device.update]

/-- A leaf keeps to whatever an unchanged table and the requests for its module keep to. -/
theorem leaf_moves {R : σ → σ → Prop} [IsPreorder σ R] {a : Action}
    (same : ∀ s s', table s' = table s → R s s')
    (acts : ∀ r s s', r.module = Labelled.module a →
      table s' = (table s).carryOut (h.now s) r → R s s') : (Action.behaviour h).Moves R a := by
  refine Action.moves (fun s => same _ _ (device.keeps.pause s)) (fun r asked t s => ?_)
    (fun name _ s => same _ _ (device.record_keeps name s))
    fun name _ s => same _ _ (device.reset_keeps name s)
  cases e : h.request t r s with
  | mk answer s' =>
    cases answer with
    | ok => exact acts r s s' (Action.module_of_asked asked) (device.done e)
    | error => exact same s s' (device.failed e)

/-- A command of which all leaves are about other modules leaves the entry alone. -/
theorem attempted_frame {c : Command Action} (other : ∀ a ∈ c.leaves, Labelled.module a ≠ n)
    {ok : Bool} {v v' : Option Entry}
    (attempt : Attempted (Action.behaviour h) (entryAt table n) c ok v v') : v' = v := by
  obtain ⟨s, rfl, -, rfl⟩ := attempt
  have moves : ∀ a ∈ c.leaves,
      (Action.behaviour h).Moves (fun s s' => entryAt table n s' = entryAt table n s) a := by
    intro a ha
    refine device.leaf_moves (fun s s' e => congrArg (NameMap.get? · n) e) fun r s s' own e => ?_
    rw [entryAt, e, Table.get?_carryOut, if_neg (own ▸ (other a ha).symm)]
  exact c.execute_moves moves .cycle s

/-! ### Leaves

A leaf either fails and changes nothing, or its request acts on the entry. -/

theorem request_own {r : Request} (own : r.module = n) (t : Token) (s : σ) :
    (h.request t r s).1.isOk = false ∧ entryAt table n (h.request t r s).2 = entryAt table n s ∨
      (h.request t r s).1.isOk = true ∧
        entryAt table n (h.request t r s).2 = r.onEntry (h.now s) (entryAt table n s) := by
  cases e : h.request t r s with
  | mk answer s' =>
    cases answer with
    | ok => exact .inr ⟨rfl, by rw [entryAt, device.done e, Table.get?_carryOut, if_pos own.symm]⟩
    | error => exact .inl ⟨rfl, by rw [entryAt, device.failed e]⟩

theorem attempted_host {op : HostOp} {m : Module} (own : m.name = n) {ok : Bool}
    {v v' : Option Entry}
    (attempt : Attempted (Action.behaviour h) (entryAt table n) (.leaf (.host op m)) ok v v') :
    ok = false ∧ v' = v ∨
      ok = true ∧ ∃ r s, op.forward m = .ok r ∧ v' = r.onEntry (h.now s) v := by
  obtain ⟨s, rfl, rfl, rfl⟩ := attempt
  simp only [Command.execute, Action.behaviour]
  rcases Action.execute_cases (device.entry_keeps n) .cycle (.host op m) s with
    failed | ⟨s₁, still, e⟩
  · exact .inl failed
  · rw [e, Action.carryOut, ← still]
    cases forward : op.forward m with
    | error => exact .inl ⟨rfl, rfl⟩
    | ok r =>
      refine (device.request_own ((HostOp.module_forward forward).trans own) .cycle s₁).imp_right ?_
      exact fun done => ⟨done.1, r, s₁, rfl, done.2⟩

/-- A leaf that fails leaves the entry as it was. -/
theorem host_failed {op : HostOp} {m : Module} (own : m.name = n) {v v' : Option Entry}
    (attempt : Attempted (Action.behaviour h) (entryAt table n) (.leaf (.host op m)) false v v') :
    v' = v :=
  ((device.attempted_host own attempt).resolve_right fun done => nomatch done.1).2

/-- A leaf that succeeds makes a request. -/
theorem host_done {op : HostOp} {m : Module} (own : m.name = n) {v v' : Option Entry}
    (attempt : Attempted (Action.behaviour h) (entryAt table n) (.leaf (.host op m)) true v v') :
    ∃ r s, op.forward m = .ok r ∧ v' = r.onEntry (h.now s) v :=
  ((device.attempted_host own attempt).resolve_left fun failed => nomatch failed.1).2

/-- To take a leaf back is to make a request, if there is one. -/
theorem undone_leaf {a : Action} {v v' : Option Entry}
    (back : Undone (Action.behaviour h) (entryAt table n) (.leaf a) v v')
    (own : Labelled.module a = n) :
    match a.backward with
    | none => v' = v
    | some r => ∃ s, v' = r.onEntry (h.now s) v := by
  obtain ⟨s, rfl, rfl⟩ := back
  simp only [Command.undo, Action.behaviour, Action.undo]
  cases backward : a.backward with
  | none => rfl
  | some r =>
    rcases device.request_own ((Action.module_backward backward).trans own) .fresh s with
      ⟨no, -⟩ | yes
    · rw [device.fresh r s] at no
      cases no
    · exact ⟨s, yes.2⟩

/-- What is noted in the store leaves the entries alone. -/
theorem attempted_noted {a : Action} {ok : Bool} {v v' : Option Entry}
    (attempt : Attempted (Action.behaviour h) (entryAt table n) (.leaf a) ok v v')
    (keeps : ∀ t s, table (a.carryOut h t s).2 = table s) : v' = v := by
  obtain ⟨s, rfl, -, rfl⟩ := attempt
  simp only [Command.execute, Action.behaviour]
  rcases Action.execute_cases (device.entry_keeps n) .cycle a s with failed | ⟨s₁, still, e⟩
  · exact failed.2
  · rw [e, entryAt, keeps]
    exact still

/-! ### Commands -/

section

variable {t : Target} (host : t.place = .host) {m : Module} (own : m.name = n) {v v' : Option Entry}

include host own

theorem removed
    (attempt : Attempted (Action.behaviour h) (entryAt table n) (t.remove m) true v v') :
    v' = none := by
  simp only [Target.remove, host] at attempt
  obtain ⟨r, s, forward, rfl⟩ := device.host_done own attempt
  cases forward
  rfl

theorem not_removed
    (attempt : Attempted (Action.behaviour h) (entryAt table n) (t.remove m) false v v') :
    v' = v := by
  simp only [Target.remove, host] at attempt
  exact device.host_failed own attempt

theorem stopped (attempt : Attempted (Action.behaviour h) (entryAt table n) (t.stop m) true v v') :
    v' = v.map .stopped := by
  simp only [Target.stop, host] at attempt
  obtain ⟨r, s, forward, rfl⟩ := device.host_done own attempt
  cases forward
  rfl

theorem not_stopped
    (attempt : Attempted (Action.behaviour h) (entryAt table n) (t.stop m) false v v') :
    v' = v := by
  simp only [Target.stop, host] at attempt
  exact device.host_failed own attempt

theorem created {runtime : RuntimeInfo} {identity : Option Identity}
    (attempt : Attempted (Action.behaviour h) (entryAt table n) (t.create m runtime identity) true
      v v') : ∃ s, v' = some (.landed (h.now s) m) := by
  simp only [Target.create, host] at attempt
  cases attempt.together with
  | goes pull later =>
  cases later with
  | goes create later =>
    obtain ⟨r, s, forward, rfl⟩ := device.host_done own create
    cases forward
    split at later
    · rename_i run
      cases later with
      | goes start later =>
        cases later
        obtain ⟨r, s', forward, rfl⟩ := device.host_done own start
        cases forward
        exact ⟨s', by rw [Entry.landed, if_pos run]; rfl⟩
    · rename_i run
      cases later
      exact ⟨s, by rw [Entry.landed, if_neg run]; rfl⟩

/-- A module that was not brought in the end is not there, unless nothing changed. -/
theorem not_created {runtime : RuntimeInfo} {identity : Option Identity}
    (attempt : Attempted (Action.behaviour h) (entryAt table n) (t.create m runtime identity) false
      v v') : v' = v ∨ v' = none := by
  simp only [Target.create, host] at attempt
  cases attempt.together with
  | fails pull => exact .inl (device.host_failed own pull)
  | @backs _ _ _ v₁ v₂ _ pull later back =>
    have pulled : v₁ = v := by
      obtain ⟨r, s, forward, rfl⟩ := device.host_done own pull
      cases image : m.image <;> rw [image] at forward <;> cases forward
      rfl
    rw [device.undone_leaf back own, ← pulled]
    cases later with
    | fails create => exact .inl (device.host_failed own create)
    | backs _ _ back =>
      obtain ⟨s, rfl⟩ := device.undone_leaf back own
      exact .inr rfl

theorem updated {old : Module} {e : Entry}
    (attempt : Attempted (Action.behaviour h) (entryAt table n) (t.update old m) true (some e) v') :
    ∃ s, v' = some (e.adjusted m.status (h.now s)) := by
  simp only [Target.update, host] at attempt
  cases attempt.together with
  | goes setStatus later =>
    obtain ⟨r, s, forward, rfl⟩ := device.host_done own setStatus
    cases forward
    split at later
    · rename_i status
      cases later with
      | goes start later =>
        cases later
        obtain ⟨r, s', forward, rfl⟩ := device.host_done own start
        cases forward
        exact ⟨s', by rw [status]; rfl⟩
    · rename_i status
      cases later with
      | goes stop later =>
        cases later
        obtain ⟨r, s', forward, rfl⟩ := device.host_done own stop
        cases forward
        exact ⟨s', by rw [status]; rfl⟩
    · rename_i status
      cases later
      exact ⟨s, by rw [status]; rfl⟩

/-- A status that was changed in vain is changed back. -/
theorem not_updated {old : Module} {e : Entry} (status : e.module.status = old.status)
    (attempt : Attempted (Action.behaviour h) (entryAt table n) (t.update old m) false (some e)
      v') : v' = some e := by
  simp only [Target.update, host] at attempt
  cases attempt.together with
  | fails setStatus => exact device.host_failed own setStatus
  | @backs _ _ _ v₁ v₂ _ setStatus later back =>
    have unmoved : v₂ = v₁ := by
      split at later
      · cases later with
        | fails start => exact device.host_failed own start
        | backs _ nothing => cases nothing
      · cases later with
        | fails stop => exact device.host_failed own stop
        | backs _ nothing => cases nothing
      · cases later
    obtain ⟨r, s, forward, rfl⟩ := device.host_done own setStatus
    cases forward
    obtain ⟨s', rfl⟩ := device.undone_leaf back own
    rw [unmoved]
    simp [Request.onEntry, Entry.declared, ← status]

end

/-! A restart is recorded before it is made, and what is recorded is no part of the entry. -/

section

variable {t : Target} (host : t.place = .host) {m : Module} (own : m.name = n) {v v' : Option Entry}

include host own

theorem restarted
    (attempt : Attempted (Action.behaviour h) (entryAt table n)
      (.group .restart m.name [.leaf (.recordRestart m.name), t.restart m]) true v v') :
    ∃ s, v' = v.map (.started (h.now s)) := by
  simp only [Target.restart, host] at attempt
  cases attempt.together with
  | goes record later =>
  cases later with
  | goes restart later =>
    cases later
    obtain ⟨r, s, forward, rfl⟩ := device.host_done own restart
    cases forward
    rw [device.attempted_noted record fun _ => device.record_keeps m.name]
    exact ⟨s, rfl⟩

theorem not_restarted
    (attempt : Attempted (Action.behaviour h) (entryAt table n)
      (.group .restart m.name [.leaf (.recordRestart m.name), t.restart m]) false v v') :
    v' = v := by
  simp only [Target.restart, host] at attempt
  cases attempt.together with
  | fails record => exact device.attempted_noted record fun _ => device.record_keeps m.name
  | backs record later back =>
    rw [device.undone_leaf back own]
    cases later with
    | fails restart =>
      rw [device.host_failed own restart]
      exact device.attempted_noted record fun _ => device.record_keeps m.name
    | backs _ nothing => cases nothing

end

theorem reset_done {ok : Bool} {v v' : Option Entry}
    (attempt : Attempted (Action.behaviour h) (entryAt table n) (.leaf (.resetRestarts n)) ok
      v v') : v' = v :=
  device.attempted_noted attempt fun _ => device.reset_keeps n

/-! ### Commands that are run

A command that is tried again begins with the entry as it was, or, where another module was to be
replaced, with none. -/

section

variable {r : Runner} {ok : Bool} {v v' : Option Entry}

/-- The commands of other modules leave the entry alone, however often they are tried. -/
theorem does_frame {c : Command Action} (other : ∀ a ∈ c.leaves, Labelled.module a ≠ n)
    (does : r.Does (Action.behaviour h) (entryAt table n) c ok v v') : v' = v := by
  obtain ⟨k, -, tried⟩ := does
  exact tried.unchanged fun _ _ _ attempt => device.attempted_frame other attempt

theorem does_reset
    (does : r.Does (Action.behaviour h) (entryAt table n) (.leaf (.resetRestarts n)) ok v v') :
    v' = v := by
  obtain ⟨k, -, tried⟩ := does
  exact tried.unchanged fun _ _ _ attempt => device.reset_done attempt

variable {t : Target} (host : t.place = .host) {m : Module} (own : m.name = n)

include host own

theorem does_remove (does : r.Does (Action.behaviour h) (entryAt table n) (t.remove m) ok v v') :
    v' = if ok then none else v := by
  obtain ⟨k, -, tried⟩ := does
  have attempt := tried.once fun _ _ failed => device.not_removed host own failed
  cases ok with
  | true => exact device.removed host own attempt
  | false => exact device.not_removed host own attempt

theorem does_stop (does : r.Does (Action.behaviour h) (entryAt table n) (t.stop m) ok v v') :
    v' = if ok then v.map .stopped else v := by
  obtain ⟨k, -, tried⟩ := does
  have attempt := tried.once fun _ _ failed => device.not_stopped host own failed
  cases ok with
  | true => exact device.stopped host own attempt
  | false => exact device.not_stopped host own attempt

theorem does_restart (does : r.Does (Action.behaviour h) (entryAt table n)
      (.group .restart m.name [.leaf (.recordRestart m.name), t.restart m]) ok v v') :
    if ok then ∃ s, v' = v.map (.started (h.now s)) else v' = v := by
  obtain ⟨k, -, tried⟩ := does
  have attempt := tried.once fun _ _ failed => device.not_restarted host own failed
  cases ok with
  | true => exact device.restarted host own attempt
  | false => exact device.not_restarted host own attempt

theorem does_create {runtime : RuntimeInfo} {identity : Option Identity}
    (does : r.Does (Action.behaviour h) (entryAt table n) (t.create m runtime identity) ok v v') :
    if ok then ∃ s, v' = some (.landed (h.now s) m) else v' = v ∨ v' = none := by
  obtain ⟨k, -, tried⟩ := does
  obtain ⟨v₁, start, last⟩ := tried.last_attempt (P := fun w => w = v ∨ w = none)
    (fun w w' start failed => (device.not_created host own failed).elim (· ▸ start) .inr) (.inl rfl)
  cases ok with
  | true => exact device.created host own last
  | false => exact (device.not_created host own last).elim (· ▸ start) .inr

theorem does_update {old : Module} {e : Entry} (status : e.module.status = old.status)
    (does : r.Does (Action.behaviour h) (entryAt table n) (t.update old m) ok (some e) v') :
    if ok then ∃ s, v' = some (e.adjusted m.status (h.now s)) else v' = some e := by
  obtain ⟨k, -, tried⟩ := does
  obtain ⟨v₁, rfl, last⟩ := tried.last_attempt (P := (· = some e))
    (fun w w' start failed => device.not_updated host own status (start ▸ failed)) rfl
  cases ok with
  | true => exact device.updated host own last
  | false => exact device.not_updated host own status last

end

end Host.IsDevice
end Steward
