/-
# The shape of a plan

A plan is four blocks in a row: what goes, what only changes its status, what comes, and what the
restart policy asks for (`Planner.plan_shape`). So the two sets of modules, the policy and what the
store tells determine the plan, everything goes before anything comes, and a name has one command at
most, or two if its module is replaced (`Planner.filter_commands`).

The store is any store: it may fail, and its answers may change from one question to the next. What
it tells of a name is what it answers in the turn of that name (`StateStore.told`).

Key definitions: `StateStore.told`, `Planner.commandsFor`, `Planner.Task`.
Key theorems: `Planner.plan_eq`, `Planner.filter_commands`, `Planner.task_of_mem`,
`Planner.plan_shape`.
-/
import Mathlib.Order.Defs.Unbundled
import Steward.Proofs.Plan.Blocks
import Steward.Store.Memory

namespace Steward

variable {σ : Type}

/-! ### Asking the store -/

section

variable {R : σ → σ → Prop} [IsPreorder σ R] {st : StateStore σ}
  (asked : ∀ n s, R s (st.get n s).2)

include asked

omit [IsPreorder σ R] in
theorem StateStore.history_moves (n : String) (s : σ) : R s (st.history n s).2 := by
  have moved := asked n s
  unfold history
  split <;> rename_i e <;> rw [e] at moved <;> exact moved

/-- Planning keeps to what each question to the store keeps to. -/
theorem Planner.policyCommands_moves (p : Planner) (now : Instant) : ∀ (ms : List Module) (s : σ),
    R s (p.policyCommands st now ms s).2
  | [], s => refl_of R s
  | m :: ms, s =>
    trans_of R (StateStore.history_moves asked m.name s) (policyCommands_moves p now ms _)

end

/-- What a store tells of a name when it is asked for some names in order. -/
def StateStore.told (st : StateStore σ) : List String → σ → String → RestartState
  | [], _, _ => .never
  | k :: ks, s, n => if n = k then (st.history k s).1 else st.told ks (st.history k s).2 n

namespace Planner

variable (p : Planner) (st : StateStore σ) (desired current : ModuleSet) (ctx : PlanContext)
  (now : Instant) (s : σ)

/-- The names that are kept, in order. -/
def keptNames : List String :=
  (settled desired current (desired.diff current)).map Module.name

theorem mem_settled_iff {m : Module} :
    m ∈ settled desired current (desired.diff current) ↔ desired.fate current m.name = .kept m := by
  simp only [settled, List.mem_filter, ModuleSet.mem_toList_iff, Bool.and_eq_true,
    Bool.not_eq_true', ← Bool.not_eq_true, ModuleSet.touches_diff_iff, not_not,
    ModuleSet.contains_eq, Option.isSome_iff_exists, ModuleSet.fate_eq_kept_iff]
  constructor
  · rintro ⟨there, agree, new, hd⟩
    exact ⟨there, new, hd, by simpa [ModuleSet.Agree, hd, there] using agree⟩
  · rintro ⟨there, new, hd, same⟩
    exact ⟨there, by simpa [ModuleSet.Agree, hd, there] using same, new, hd⟩

theorem ascending_keptNames : (keptNames desired current).Pairwise (· < ·) :=
  current.ascending_toList.sublist (List.filter_sublist.map _)

theorem mem_keptNames_iff {n : String} :
    n ∈ keptNames desired current ↔ ∃ m, desired.fate current n = .kept m := by
  rw [keptNames, List.mem_map]
  constructor
  · rintro ⟨m, hm, rfl⟩
    exact ⟨m, (mem_settled_iff desired current).1 hm⟩
  · rintro ⟨m, hm⟩
    obtain rfl := current.name_of_get? (ModuleSet.fate_eq_kept_iff.1 hm).1
    exact ⟨m, (mem_settled_iff desired current).2 hm, rfl⟩

/-! ### What the policy asks for -/

theorem policyCommands_eq : ∀ {ms : List Module} {s : σ}, (ms.map Module.name).Nodup →
    (p.policyCommands st now ms s).1 =
      ms.filterMap fun m => p.policyCommand m (st.told (ms.map Module.name) s m.name) now
  | [], _, _ => rfl
  | m :: ms, s, nodup => by
    rw [List.map_cons, List.nodup_cons] at nodup
    have later : ∀ m' ∈ ms, st.told ((m :: ms).map Module.name) s m'.name =
        st.told (ms.map Module.name) (st.history m.name s).2 m'.name := fun m' hm' =>
      if_neg fun e : m'.name = m.name => nodup.1 (e ▸ List.mem_map.2 ⟨m', hm', rfl⟩)
    have first : st.told ((m :: ms).map Module.name) s m.name = (st.history m.name s).1 :=
      if_pos rfl
    have rest : (ms.filterMap fun m' =>
          p.policyCommand m' (st.told ((m :: ms).map Module.name) s m'.name) now) =
        (p.policyCommands st now ms (st.history m.name s).2).1 := by
      rw [policyCommands_eq nodup.2]
      exact List.filterMap_congr fun m' hm' => by rw [later m' hm']
    rw [List.filterMap_cons, first, rest]
    cases h : p.policyCommand m (st.history m.name s).1 now <;> simp [policyCommands, h]

theorem upkeep_block : Block
    (fun n c => ∃ m, desired.fate current n = .kept m ∧
      Due p now m (st.told (keptNames desired current) s n) c)
    (p.policyCommands st now (settled desired current (desired.diff current)) s).1 := by
  rw [policyCommands_eq p st now ((ascending_keptNames desired current).imp String.ne_of_lt)]
  have named : ∀ m c,
      p.policyCommand m (st.told (keptNames desired current) s m.name) now = some c →
      c.module = m.name := fun m c h => (Due.iff_policyCommand.2 h).module_eq
  constructor
  · exact (ascending_keptNames desired current).sublist (map_filterMap_sublist named _)
  · intro c
    rw [List.mem_filterMap]
    constructor
    · rintro ⟨m, hm, h⟩
      rw [named m c h]
      exact ⟨m, (mem_settled_iff desired current).1 hm, Due.iff_policyCommand.2 h⟩
    · rintro ⟨m, hf, h⟩
      rw [h.module_eq] at hf h
      exact ⟨m, (mem_settled_iff desired current).2 hf, Due.iff_policyCommand.1 h⟩

/-! ### The plan -/

/-- The blocks of a plan in their order. -/
def blocks : List (Command Action) :=
  (byName (changes current (desired.diff current)).removed).map p.target.remove ++
    (changes current (desired.diff current)).adjusted.map
      (fun (old, new) => p.target.update old new) ++
    (byName (changes current (desired.diff current)).created).map (ctx.bring p.target) ++
    (p.policyCommands st now (settled desired current (desired.diff current)) s).1

/-- A plan for valid modules is made of the blocks, and making it only asks the store. -/
theorem plan_eq (valid : p.validate desired ctx = .ok ()) :
    p.plan st desired current ctx now s =
      (.ok ⟨p.blocks st desired current ctx now s⟩,
        (p.policyCommands st now (settled desired current (desired.diff current)) s).2) := by
  simp only [plan, valid, blocks, changeCommands]
  rfl

/-- Whoever has a plan asked for one of valid modules, and has the blocks. -/
theorem plan_ok {p : Planner} {st : StateStore σ} {desired current : ModuleSet} {ctx : PlanContext}
    {now : Instant} {s s' : σ} {plan : Plan Action}
    (planned : p.plan st desired current ctx now s = (.ok plan, s')) :
    p.validate desired ctx = .ok () ∧ plan.commands = p.blocks st desired current ctx now s ∧
      s' = (p.policyCommands st now (settled desired current (desired.diff current)) s).2 := by
  cases valid : p.validate desired ctx with
  | error e => simp [Planner.plan, valid] at planned
  | ok _ =>
    rw [p.plan_eq st desired current ctx now s valid] at planned
    cases planned
    exact ⟨rfl, rfl, rfl⟩

/-- The commands that a name has, by its fate. -/
def commandsFor (told : RestartState) : Fate → List (Command Action)
  | .absent => []
  | .gone old => [p.target.remove old]
  | .added new => [ctx.bring p.target new]
  | .adjusted old new => [p.target.update old new]
  | .replaced old new => [p.target.remove old, ctx.bring p.target new]
  | .kept m => (p.policyCommand m told now).toList

/-- A name has the commands that its fate calls for and no others. -/
theorem filter_commands (n : String) :
    (p.blocks st desired current ctx now s).filter (·.module == n) =
      p.commandsFor ctx now (st.told (keptNames desired current) s n) (desired.fate current n) := by
  rw [blocks, List.filter_append, List.filter_append, List.filter_append,
    (removals_block desired current p.target).filter_eq (fun _ => .rfl) (fun _ => module_removal),
    (adjustments_block desired current p.target).filter_eq (fun _ => .rfl)
      (fun _ => module_adjustment),
    (creations_block desired current p.target ctx).filter_eq (fun _ => .rfl)
      (fun _ => module_creation),
    (p.upkeep_block st desired current now s).filter_eq (fun _ => upkeep_eq_some_iff.symm)
      (fun _ => module_upkeep)]
  cases desired.fate current n <;> rfl

/-- A command is one of those that the fate of its module calls for. -/
theorem mem_commandsFor {c : Command Action} (hc : c ∈ p.blocks st desired current ctx now s) :
    c ∈ p.commandsFor ctx now (st.told (keptNames desired current) s c.module)
      (desired.fate current c.module) := by
  rw [← filter_commands]
  exact List.mem_filter.2 ⟨hc, beq_self_eq_true _⟩

/-! ### Tasks

What is planned for a name handles its module without starting it anew, or it is a restart, or it
takes the count of restarts back. -/

/-- What may be planned for a name, given what is told of its restarts. -/
inductive Task (n : String) (told : RestartState) : Command Action → Prop
  | handle {m : Module} {c : Command Action} : m.name = n → (∀ a ∈ c.leaves, a.Handles m) →
    c.kind ≠ .restart → c.kind ≠ .resetRestarts → Task n told c
  | restart {m : Module} : m.name = n → p.policy.decision m told now = .restart →
    Task n told (.group .restart n [.leaf (.recordRestart n), p.target.restart m])
  | reset : 0 < told.count → Task n told (.leaf (.resetRestarts n))

theorem Task.of_due {m : Module} {told : RestartState} {c : Command Action}
    (due : Due p now m told c) : Task p now m.name told c := by
  cases due with
  | restart decided => exact .restart rfl decided
  | stop => exact .handle rfl (p.target.handles_stop m) (by simp) (by simp)
  | reset _ count => exact .reset count

/-- Every command is a task of its module. -/
theorem task_of_mem {c : Command Action} (hc : c ∈ p.blocks st desired current ctx now s) :
    Task p now c.module (st.told (keptNames desired current) s c.module) c := by
  have called := p.mem_commandsFor st desired current ctx now s hc
  cases hf : desired.fate current c.module with
  | absent => simp [hf, commandsFor] at called
  | gone old =>
    obtain rfl := List.mem_singleton.1 (hf ▸ called)
    exact .handle (by simp) (p.target.handles_remove old) (by simp) (by simp)
  | added new =>
    obtain rfl := List.mem_singleton.1 (hf ▸ called)
    exact .handle (by simp [PlanContext.bring]) (p.target.handles_create new _ _)
      (by simp [PlanContext.bring]) (by simp [PlanContext.bring])
  | adjusted old new =>
    obtain rfl := List.mem_singleton.1 (hf ▸ called)
    exact .handle (by simp) (p.target.handles_update new old) (by simp) (by simp)
  | replaced old new =>
    rw [hf, commandsFor, List.mem_pair] at called
    rcases called with rfl | rfl
    · exact .handle (by simp) (p.target.handles_remove old) (by simp) (by simp)
    · exact .handle (by simp [PlanContext.bring]) (p.target.handles_create new _ _)
        (by simp [PlanContext.bring]) (by simp [PlanContext.bring])
  | kept m =>
    rw [hf, commandsFor, Option.mem_toList] at called
    have due := Due.iff_policyCommand.2 called
    have task := Task.of_due p now due
    rwa [← due.module_eq] at task

/-- A restart or a reset is due for a module that is kept. -/
theorem due_of_kind {c : Command Action} (hc : c ∈ p.blocks st desired current ctx now s)
    (kind : c.kind = .restart ∨ c.kind = .resetRestarts) :
    ∃ m, desired.fate current c.module = .kept m ∧
      Due p now m (st.told (keptNames desired current) s c.module) c := by
  have called := p.mem_commandsFor st desired current ctx now s hc
  cases hf : desired.fate current c.module with
  | absent => simp [hf, commandsFor] at called
  | gone old => simp [List.mem_singleton.1 (hf ▸ called)] at kind
  | added new => simp [List.mem_singleton.1 (hf ▸ called), PlanContext.bring] at kind
  | adjusted old new => simp [List.mem_singleton.1 (hf ▸ called)] at kind
  | replaced old new =>
    rw [hf, commandsFor, List.mem_pair] at called
    rcases called with rfl | rfl
    · simp at kind
    · simp [PlanContext.bring] at kind
  | kept m =>
    rw [hf, commandsFor, Option.mem_toList] at called
    exact ⟨m, rfl, Due.iff_policyCommand.2 called⟩

/-- All leaves of a task are about its name. -/
theorem Task.module_of_mem_leaves {n : String} {told : RestartState} {c : Command Action}
    (task : Task p now n told c) {a : Action} (ha : a ∈ c.leaves) : Labelled.module a = n := by
  cases task with
  | handle name handles => exact (handles a ha).module_eq.trans name
  | restart name =>
    simp only [Command.leaves, Command.leavesOf, List.append_nil, List.cons_append, List.nil_append,
      List.mem_cons] at ha
    rcases ha with rfl | ha
    · rfl
    · exact (p.target.module_of_mem_restart _ ha).trans name
  | reset =>
    rw [List.mem_singleton.1 ha]
    rfl

/-- All leaves of a command are about its module. -/
theorem module_of_mem_leaves {c : Command Action} (hc : c ∈ p.blocks st desired current ctx now s)
    {a : Action} (ha : a ∈ c.leaves) : Labelled.module a = c.module :=
  (p.task_of_mem st desired current ctx now s hc).module_of_mem_leaves p now ha

/-- A count is taken back only by a task of its own, and only if it is not zero. -/
theorem Task.reset_of_mem {n name : String} {told : RestartState} {c : Command Action}
    (task : Task p now n told c) (ha : .resetRestarts name ∈ c.leaves) :
    c = .leaf (.resetRestarts n) ∧ 0 < told.count := by
  cases task with
  | handle _ handles => cases handles _ ha
  | restart =>
    unfold Target.restart at ha
    split at ha <;> simp [Command.leaves, Command.leavesOf] at ha
  | reset count => exact ⟨rfl, count⟩

/-! ### The shape -/

/-- The shape of the commands that move the current modules towards the desired ones, given what is
told of the restarts. -/
structure Shape (told : String → RestartState) (cs : List (Command Action)) : Prop where
  /-- Four blocks in a row, of which the names ascend strictly and each command is called for. -/
  blocks : ∃ removals adjustments creations upkeep : List (Command Action),
    cs = removals ++ adjustments ++ creations ++ upkeep ∧
    (∀ c ∈ removals, c.kind = .remove) ∧
    Block (fun n c => p.target.removal (desired.fate current n) = some c) removals ∧
    (∀ c ∈ adjustments, c.kind = .update) ∧
    Block (fun n c => p.target.adjustment (desired.fate current n) = some c) adjustments ∧
    (∀ c ∈ creations, c.kind = .create) ∧
    Block (fun n c => p.target.creation ctx (desired.fate current n) = some c) creations ∧
    (∀ c ∈ upkeep, c.kind = .restart ∨ c.kind = .stop ∨ c.kind = .resetRestarts) ∧
    Block (fun n c => ∃ m, desired.fate current n = .kept m ∧ Due p now m (told n) c) upkeep
  /-- All removals precede all creations. -/
  order : ∀ (i j : Nat) (c c' : Command Action), cs[i]? = some c → cs[j]? = some c' →
    c.kind = .remove → c'.kind = .create → i < j
  /-- A name has one command at most, unless its module is replaced: then it goes and comes. -/
  once : ∀ n, (cs.filter (·.module == n)).length ≤ 1 ∨
    ∃ old new, desired.fate current n = .replaced old new ∧
      cs.filter (·.module == n) = [p.target.remove old, ctx.bring p.target new]

theorem length_commandsFor (told : RestartState) (f : Fate) :
    (p.commandsFor ctx now told f).length ≤ 1 ∨ ∃ old new, f = .replaced old new := by
  cases f with
  | replaced old new => exact .inr ⟨old, new, rfl⟩
  | kept m => exact .inl (by cases h : p.policyCommand m told now <;> simp [commandsFor, h])
  | _ => exact .inl (by simp [commandsFor])

/-- Of two lists in a row, what is only in the first precedes what is only in the second. -/
theorem lt_of_getElem?_append {α : Type} {as bs : List α} {i j : Nat} {a b : α}
    (ha : (as ++ bs)[i]? = some a) (hb : (as ++ bs)[j]? = some b) (not_right : a ∉ bs)
    (not_left : b ∉ as) : i < j := by
  have left : i < as.length := by
    by_contra h
    rw [List.getElem?_append_right (Nat.le_of_not_lt h)] at ha
    exact not_right (List.mem_of_getElem? ha)
  have right : as.length ≤ j := by
    by_contra h
    rw [List.getElem?_append_left (Nat.lt_of_not_le h)] at hb
    exact not_left (List.mem_of_getElem? hb)
  omega

theorem shape_blocks : Shape p desired current ctx now (st.told (keptNames desired current) s)
    (p.blocks st desired current ctx now s) := by
  have removes :
      ∀ c ∈ (byName (changes current (desired.diff current)).removed).map p.target.remove,
        c.kind = .remove := by
    intro c hc
    obtain ⟨m, -, rfl⟩ := List.mem_map.1 hc
    exact p.target.kind_remove m
  have updates : ∀ c ∈ (changes current (desired.diff current)).adjusted.map
      (fun (old, new) => p.target.update old new), c.kind = .update := by
    intro c hc
    obtain ⟨⟨old, new⟩, -, rfl⟩ := List.mem_map.1 hc
    exact p.target.kind_update new old
  have creates : ∀ c ∈ (byName (changes current (desired.diff current)).created).map
      (ctx.bring p.target), c.kind = .create := by
    intro c hc
    obtain ⟨m, -, rfl⟩ := List.mem_map.1 hc
    exact p.target.kind_create m _ _
  have keeps : ∀ c ∈ (p.policyCommands st now (settled desired current (desired.diff current)) s).1,
      c.kind = .restart ∨ c.kind = .stop ∨ c.kind = .resetRestarts := by
    intro c hc
    obtain ⟨m, -, h⟩ := ((p.upkeep_block st desired current now s).mem_iff c).1 hc
    exact h.kind
  constructor
  · exact ⟨_, _, _, _, rfl, removes, removals_block .., updates, adjustments_block .., creates,
      creations_block .., keeps, upkeep_block ..⟩
  · intro i j c c' hi hj kind kind'
    rw [blocks, List.append_assoc, List.append_assoc] at hi hj
    refine lt_of_getElem?_append hi hj ?_ ?_
    · intro h
      rcases List.mem_append.1 h with h | h
      · simp [updates c h] at kind
      · rcases List.mem_append.1 h with h | h
        · simp [creates c h] at kind
        · rcases keeps c h with h | h | h <;> simp [h] at kind
    · intro h
      simp [removes c' h] at kind'
  · intro n
    rw [filter_commands]
    refine (p.length_commandsFor ctx now _ _).imp_right ?_
    rintro ⟨old, new, hf⟩
    exact ⟨old, new, hf, by rw [hf, commandsFor]⟩

/-- **The shape of every plan.** For desired modules that pass validation there is a plan, and it
has the shape that the fates of the names give it, where the store is asked for the names that are
kept in ascending order. -/
theorem plan_shape (valid : p.validate desired ctx = .ok ()) :
    ∃ plan s' asked, p.plan st desired current ctx now s = (.ok plan, s') ∧
      asked.Pairwise (· < ·) ∧ (∀ n, n ∈ asked ↔ ∃ m, desired.fate current n = .kept m) ∧
      Shape p desired current ctx now (st.told asked s) plan.commands := by
  exact ⟨_, _, keptNames desired current, p.plan_eq st desired current ctx now s valid,
    ascending_keptNames desired current, fun n => mem_keptNames_iff desired current,
    p.shape_blocks st desired current ctx now s⟩

/-! A sample in which one name has each of the fates. -/

namespace Sample

/-- A planner for a single host. -/
def planner : Planner := { target := { place := .host } }

/-- A module that runs an image. -/
def running (name image : String) : Module :=
  { name, version := "1", type := "docker", config := .object [("image", .string image)] }

/-- A module that was seen to have failed. -/
def crashed : Module := { running "d" "d:1" with observed := some { status := .failed } }

/-- The modules that are there: `a` is to stop, `b` to be replaced, `d` to be kept, `e` to go. -/
def there : ModuleSet :=
  [running "a" "a:1", running "b" "b:1", crashed, running "e" "e:1"].foldl ModuleSet.insert .empty

/-- The modules that are desired; `c` is to come. -/
def wanted : ModuleSet :=
  [{ running "a" "a:1" with status := .stopped }, running "b" "b:2", running "c" "c:1",
    running "d" "d:1"].foldl ModuleSet.insert .empty

end Sample

theorem plan_shape_sample :
    Sample.planner.validate Sample.wanted {} = .ok () ∧
      ∃ plan s' asked,
        Sample.planner.plan memoryStore Sample.wanted Sample.there {} .epoch ∅ = (.ok plan, s') ∧
        asked.Pairwise (· < ·) ∧
        (∀ n, n ∈ asked ↔ ∃ m, Sample.wanted.fate Sample.there n = .kept m) ∧
        Shape Sample.planner Sample.wanted Sample.there {} .epoch (memoryStore.told asked ∅)
          plan.commands :=
  ⟨by decide, plan_shape _ _ _ _ _ _ _ (by decide)⟩

end Planner
end Steward
