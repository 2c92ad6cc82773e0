/-
# Blocks of commands

A plan is made of blocks. In each block the names ascend strictly, and a command is in it exactly if
the fate of its name calls for it (`Block`), so the fates determine the block. Here are the blocks
of changes: what goes, what only changes its status, and what comes.

The planner lists the modules to remove and to create in two passes and sorts them afterwards; the
names in the lists differ from each other (`nodup_removed`, `nodup_created`), so sorting them makes
them ascend strictly.

Key definitions: `Action.Handles`, `Block`, `Target.removal`, `Target.adjustment`,
`Target.creation`, `Due`, `Planner.upkeep`.
Key theorems: `Block.filter_eq`, `Planner.removals_block`, `Planner.adjustments_block`,
`Planner.creations_block`.
-/
import Mathlib.Data.List.Nodup
import Steward.Plan.Planner
import Steward.Proofs.Module.Difference

namespace Steward

variable {α σ : Type}

/-! ### Commands of a target

Each is about the module it is made from, and its kind is what it is made for, on either place. -/

/-- A leaf that acts on a module without starting it anew. -/
inductive Action.Handles (m : Module) : Action → Prop
  | host {op : HostOp} : op ≠ .restart → Handles m (.host op m)
  | cluster {op : ClusterOp} : op ≠ .rollout → Handles m (.cluster op m)

theorem Action.Handles.module_eq {m : Module} {a : Action} (h : a.Handles m) :
    Labelled.module a = m.name := by
  cases h <;> rfl

namespace Target

variable (t : Target) (m old : Module) (runtime : RuntimeInfo) (identity : Option Identity)

@[simp] theorem module_create : (t.create m runtime identity).module = m.name := by
  cases h : t.place <;> simp [create, h, Command.module, Labelled.module]

@[simp] theorem module_update : (t.update old m).module = m.name := by
  cases h : t.place <;> simp [update, h, Command.module]

@[simp] theorem module_remove : (t.remove m).module = m.name := by
  cases h : t.place <;> simp [remove, h, Command.module, Labelled.module]

@[simp] theorem module_stop : (t.stop m).module = m.name := by
  cases h : t.place <;> simp [stop, h, Command.module, Labelled.module]

@[simp] theorem kind_create : (t.create m runtime identity).kind = .create := by
  cases h : t.place <;> simp [create, h, Command.kind, Labelled.kind, ClusterOp.kind]

@[simp] theorem kind_update : (t.update old m).kind = .update := by
  cases h : t.place <;> simp [update, h, Command.kind]

@[simp] theorem kind_remove : (t.remove m).kind = .remove := by
  cases h : t.place <;> simp [remove, h, Command.kind, Labelled.kind, HostOp.kind, ClusterOp.kind]

@[simp] theorem kind_stop : (t.stop m).kind = .stop := by
  cases h : t.place <;> simp [stop, h, Command.kind, Labelled.kind, HostOp.kind, ClusterOp.kind]

/-! All leaves of these commands handle the module, and none starts it anew. -/

theorem handles_create : ∀ a ∈ (t.create m runtime identity).leaves, a.Handles m := by
  intro a ha
  unfold create at ha
  split at ha
  · by_cases run : m.status = .running <;>
      simp only [run, if_true, if_false, Command.leaves, Command.leavesOf, List.append_nil,
        List.cons_append, List.nil_append, List.mem_cons, List.not_mem_nil, or_false] at ha
    · rcases ha with rfl | rfl | rfl <;> exact .host (by simp)
    · rcases ha with rfl | rfl <;> exact .host (by simp)
  · rw [List.mem_singleton.1 ha]
    exact .cluster (by simp)

theorem handles_update : ∀ a ∈ (t.update old m).leaves, a.Handles m := by
  intro a ha
  unfold update at ha
  split at ha <;> cases status : m.status <;>
    simp only [status, Command.leaves, Command.leavesOf, List.append_nil, List.cons_append,
      List.nil_append, List.mem_cons, List.not_mem_nil, or_false] at ha
  · rcases ha with rfl | rfl <;> exact .host (by simp)
  · rcases ha with rfl | rfl <;> exact .host (by simp)
  · rw [ha]
    exact .host (by simp)
  · rw [ha]
    exact .cluster (by simp)
  · rw [ha]
    exact .cluster (by simp)

theorem handles_remove : ∀ a ∈ (t.remove m).leaves, a.Handles m := by
  intro a ha
  unfold remove at ha
  split at ha <;> rw [List.mem_singleton.1 ha]
  · exact .host nofun
  · exact .cluster nofun

theorem handles_stop : ∀ a ∈ (t.stop m).leaves, a.Handles m := by
  intro a ha
  unfold stop at ha
  split at ha <;> rw [List.mem_singleton.1 ha]
  · exact .host nofun
  · exact .cluster nofun

/-- To start a module anew is one leaf. -/
theorem restart_eq_leaf : ∃ a, t.restart m = .leaf a := by
  unfold restart
  split <;> exact ⟨_, rfl⟩

/-- A restart is about its module as well. -/
theorem module_of_mem_restart {a : Action} (h : a ∈ (t.restart m).leaves) :
    Labelled.module a = m.name := by
  unfold restart at h
  split at h <;> rw [List.mem_singleton.1 h] <;> rfl

end Target

/-! ### Blocks -/

/-- A block of commands: their names ascend strictly, and they are those that are called for. -/
structure Block (Called : String → Command Action → Prop) (cs : List (Command Action)) : Prop where
  ascending : (cs.map Command.module).Pairwise (· < ·)
  mem_iff : ∀ c, c ∈ cs ↔ Called c.module c

/-- What a target does about a name that goes or is replaced. -/
def Target.removal (t : Target) : Fate → Option (Command Action)
  | .gone old | .replaced old _ => some (t.remove old)
  | _ => none

/-- What a target does about a name that changes its status only. -/
def Target.adjustment (t : Target) : Fate → Option (Command Action)
  | .adjusted old new => some (t.update old new)
  | _ => none

/-- The command that brings a module, with the identity under its name. -/
def PlanContext.bring (ctx : PlanContext) (t : Target) (m : Module) : Command Action :=
  t.create m ctx.runtime (ctx.identities.get? m.name)

/-- What a target does about a name that comes or is replaced. -/
def Target.creation (t : Target) (ctx : PlanContext) : Fate → Option (Command Action)
  | .added new | .replaced _ new => some (ctx.bring t new)
  | _ => none

/-- What is due for a module that is kept, given what is told of its restarts. -/
inductive Due (p : Planner) (now : Instant) (m : Module) (told : RestartState) :
    Command Action → Prop
  | restart : p.policy.decision m told now = .restart →
    Due p now m told (.group .restart m.name [.leaf (.recordRestart m.name), p.target.restart m])
  | stop : p.policy.decision m told now = .stop → Due p now m told (p.target.stop m)
  | reset : p.policy.decision m told now = .none → 0 < told.count →
    p.policy.pastIntensiveCare m now = true → Due p now m told (.leaf (.resetRestarts m.name))

/-- What a planner does about a name that is kept. -/
def Planner.upkeep (p : Planner) (now : Instant) (told : RestartState) :
    Fate → Option (Command Action)
  | .kept m => p.policyCommand m told now
  | _ => none

section

variable {p : Planner} {now : Instant} {m : Module} {told : RestartState} {c : Command Action}

theorem Due.iff_policyCommand : Due p now m told c ↔ p.policyCommand m told now = some c := by
  constructor
  · rintro (h | h | ⟨h, count, stable⟩)
    · simp [Planner.policyCommand, h]
    · simp [Planner.policyCommand, h]
    · simp [Planner.policyCommand, h, count, stable]
  · intro h
    unfold Planner.policyCommand at h
    split at h
    · rename_i hd
      cases h
      exact .restart hd
    · rename_i hd
      cases h
      exact .stop hd
    · cases h
    · cases h
    · rename_i hd
      split at h
      · rename_i due
        cases h
        exact .reset hd due.1 due.2
      · cases h

theorem Planner.upkeep_eq_some_iff {f : Fate} :
    p.upkeep now told f = some c ↔ ∃ m, f = .kept m ∧ Due p now m told c := by
  cases f <;> simp [upkeep, Due.iff_policyCommand]

theorem Due.module_eq (h : Due p now m told c) : c.module = m.name := by
  cases h with
  | restart => rfl
  | stop => exact p.target.module_stop m
  | reset => rfl

theorem Due.kind (h : Due p now m told c) :
    c.kind = .restart ∨ c.kind = .stop ∨ c.kind = .resetRestarts := by
  cases h with
  | restart => exact .inl rfl
  | stop => exact .inr (.inl (p.target.kind_stop m))
  | reset => exact .inr (.inr rfl)

end

/-! What is called for under a name is about that name. -/

section

variable {desired current : ModuleSet} {n : String} {t : Target} {c : Command Action}

theorem module_removal (h : t.removal (desired.fate current n) = some c) : c.module = n := by
  unfold Target.removal at h
  split at h <;> cases h <;> rename_i hf <;> rw [t.module_remove]
  · exact current.name_of_get? (ModuleSet.fate_eq_gone_iff.1 hf).2
  · exact current.name_of_get? (ModuleSet.fate_eq_replaced_iff.1 hf).2.1

theorem module_adjustment (h : t.adjustment (desired.fate current n) = some c) : c.module = n := by
  unfold Target.adjustment at h
  split at h <;> cases h
  rename_i hf
  rw [t.module_update]
  exact desired.name_of_get? (ModuleSet.fate_eq_adjusted_iff.1 hf).1

theorem module_creation {ctx : PlanContext}
    (h : t.creation ctx (desired.fate current n) = some c) : c.module = n := by
  unfold Target.creation at h
  split at h <;> cases h <;> rename_i hf <;> rw [PlanContext.bring, t.module_create]
  · exact desired.name_of_get? (ModuleSet.fate_eq_added_iff.1 hf).1
  · exact desired.name_of_get? (ModuleSet.fate_eq_replaced_iff.1 hf).1

theorem module_upkeep {p : Planner} {now : Instant} {told : RestartState}
    (h : p.upkeep now told (desired.fate current n) = some c) : c.module = n := by
  obtain ⟨m, hf, due⟩ := Planner.upkeep_eq_some_iff.1 h
  rw [due.module_eq]
  exact current.name_of_get? (ModuleSet.fate_eq_kept_iff.1 hf).1

end

namespace Block

variable {Called : String → Command Action → Prop} {cs : List (Command Action)}

/-- The commands of a block for a name: the one that is called for, if there is one. -/
theorem filter_eq (b : Block Called cs) {n : String} {o : Option (Command Action)}
    (h : ∀ c, Called n c ↔ o = some c) (named : ∀ c, o = some c → c.module = n) :
    cs.filter (·.module == n) = o.toList := by
  have mem : ∀ c, c ∈ cs.filter (·.module == n) ↔ c ∈ o.toList := fun c => by
    simp only [List.mem_filter, beq_iff_eq, b.mem_iff, Option.mem_toList]
    constructor
    · rintro ⟨hc, rfl⟩
      exact (h c).1 hc
    · intro hc
      exact ⟨(named c hc).symm ▸ (h c).2 hc, named c hc⟩
  have nodup : cs.Nodup := List.Nodup.of_map _ (b.ascending.imp String.ne_of_lt)
  have perm := (List.perm_ext_iff_of_nodup (nodup.filter _) (by cases o <;> simp)).2 mem
  cases o with
  | none => exact List.perm_nil.1 perm
  | some c => exact List.perm_singleton.1 perm

/-- A block of commands that are made from modules. -/
theorem of_modules {ms : List Module} {f : Module → Command Action}
    (ascending : (ms.map Module.name).Pairwise (· < ·)) (module_f : ∀ m, (f m).module = m.name)
    (mem_iff : ∀ c, (∃ m ∈ ms, f m = c) ↔ Called c.module c) : Block Called (ms.map f) where
  ascending := by
    rw [List.map_map]
    exact (funext module_f : Command.module ∘ f = Module.name) ▸ ascending
  mem_iff c := by rw [List.mem_map, mem_iff]

end Block

/-! ### Sorting out the changes -/

/-- A list that is picked from another in its order keeps the order of what is kept of each entry.
-/
theorem map_filterMap_sublist {β γ : Type} {f : α → Option β} {g : α → γ} {k : β → γ}
    (h : ∀ a b, f a = some b → k b = g a) :
    ∀ l : List α, ((l.filterMap f).map k).Sublist (l.map g)
  | [] => .slnil
  | a :: l => by
    cases e : f a with
    | none =>
      rw [List.filterMap_cons_none e, List.map_cons]
      exact (map_filterMap_sublist h l).cons _
    | some b =>
      rw [List.filterMap_cons_some e, List.map_cons, List.map_cons, h a b e]
      exact (map_filterMap_sublist h l).cons_cons _

namespace Planner

/-- Modules with names of their own stand in strictly ascending order once they are sorted. -/
theorem ascending_byName {ms : List Module} (nodup : (ms.map Module.name).Nodup) :
    ((byName ms).map Module.name).Pairwise (· < ·) := by
  have sorted : ((byName ms).map Module.name).Pairwise (· ≤ ·) := by
    rw [List.pairwise_map]
    refine (List.pairwise_mergeSort ?_ ?_ ms).imp fun h => of_decide_eq_true h
    · intro a b c h₁ h₂
      exact decide_eq_true (String.le_trans (of_decide_eq_true h₁) (of_decide_eq_true h₂))
    · intro a b
      simpa using String.le_total a.name b.name
  have distinct : ((byName ms).map Module.name).Nodup :=
    (((List.mergeSort_perm ms _).map Module.name).nodup_iff).2 nodup
  refine (sorted.and distinct).imp ?_
  rintro a b ⟨le, ne⟩
  exact NameMap.lt_of_not_lt (String.not_lt.2 le) (Ne.symm ne)

/-- The module that an updated one replaces. -/
def replacedBy (current : ModuleSet) (m : Module) : Option Module :=
  (current.get? m.name).filter fun old => !old.differsOnlyInStatus m

/-- An updated module and the one whose status it changes. -/
def adjustedBy (current : ModuleSet) (m : Module) : Option (Module × Module) :=
  ((current.get? m.name).filter (·.differsOnlyInStatus m)).map (·, m)

theorem foldl_update (current : ModuleSet) :
    ∀ (us : List Module) (c : Changes), us.foldl (Changes.update current) c =
      { removed := c.removed ++ us.filterMap (replacedBy current)
        adjusted := c.adjusted ++ us.filterMap (adjustedBy current)
        created := c.created ++
          us.filter fun m => !(current.get? m.name).any (·.differsOnlyInStatus m) }
  | [], c => by simp
  | m :: us, c => by
    rw [List.foldl_cons, foldl_update current us]
    cases h : current.get? m.name with
    | none => simp [Changes.update, replacedBy, adjustedBy, h]
    | some old =>
      cases d : old.differsOnlyInStatus m <;>
        simp [Changes.update, replacedBy, adjustedBy, Option.filter_some, h, d]

section

variable (desired current : ModuleSet)

theorem changes_eq : changes current (desired.diff current) =
    { removed := (desired.diff current).removed.filterMap current.get? ++
        (desired.diff current).updated.filterMap (replacedBy current)
      adjusted := (desired.diff current).updated.filterMap (adjustedBy current)
      created := (desired.diff current).created ++ (desired.diff current).updated.filter
        fun m => !(current.get? m.name).any (·.differsOnlyInStatus m) } := by
  rw [changes, foldl_update]
  simp

theorem replacedBy_eq_some_iff {m old : Module} : replacedBy current m = some old ↔
    current.get? m.name = some old ∧ old.differsOnlyInStatus m = false := by
  simp [replacedBy, Option.filter_eq_some_iff]

theorem adjustedBy_eq_some_iff {m old new : Module} : adjustedBy current m = some (old, new) ↔
    current.get? m.name = some old ∧ old.differsOnlyInStatus m = true ∧ m = new := by
  simp [adjustedBy, Option.filter_eq_some_iff, and_assoc]

theorem name_replacedBy {m old : Module} (h : replacedBy current m = some old) :
    old.name = m.name :=
  current.name_of_get? ((replacedBy_eq_some_iff current).1 h).1

/-! What goes, what changes and what comes, by the fate of the name. -/

theorem mem_removed_iff {m : Module} :
    m ∈ (changes current (desired.diff current)).removed ↔
      desired.fate current m.name = .gone m ∨
        ∃ new, desired.fate current m.name = .replaced m new := by
  simp only [changes_eq, List.mem_append, List.mem_filterMap, ModuleSet.mem_gone_iff,
    ModuleSet.mem_updated_iff, replacedBy_eq_some_iff, ModuleSet.fate_eq_gone_iff,
    ModuleSet.fate_eq_replaced_iff]
  constructor
  · rintro (⟨n, ⟨undesired, -⟩, there⟩ | ⟨new, ⟨hd, old, ho, differ⟩, there, more⟩)
    · obtain rfl := current.name_of_get? there
      exact .inl ⟨undesired, there⟩
    · obtain rfl : old = m := Option.some.inj (ho.symm.trans there)
      have same_name := current.name_of_get? there
      exact .inr ⟨new, same_name ▸ hd, same_name ▸ there, differ, more⟩
  · rintro (⟨undesired, there⟩ | ⟨new, hd, there, differ, more⟩)
    · exact .inl ⟨m.name, ⟨undesired, m, there⟩, there⟩
    · have same_name := desired.name_of_get? hd
      rw [← same_name] at hd there
      exact .inr ⟨new, ⟨hd, m, there, differ⟩, there, more⟩

theorem mem_adjusted_iff {old new : Module} :
    (old, new) ∈ (changes current (desired.diff current)).adjusted ↔
      desired.fate current new.name = .adjusted old new := by
  simp only [changes_eq, List.mem_filterMap, ModuleSet.mem_updated_iff,
    adjustedBy_eq_some_iff, ModuleSet.fate_eq_adjusted_iff]
  constructor
  · rintro ⟨m, ⟨hd, -⟩, there, only, rfl⟩
    exact ⟨hd, there, only⟩
  · rintro ⟨hd, there, only⟩
    exact ⟨new, ⟨hd, old, there, Module.not_same_of_differsOnlyInStatus only⟩, there, only, rfl⟩

theorem mem_comes_iff {m : Module} :
    m ∈ (changes current (desired.diff current)).created ↔
      desired.fate current m.name = .added m ∨
        ∃ old, desired.fate current m.name = .replaced old m := by
  simp only [changes_eq, List.mem_append, List.mem_filter, ModuleSet.mem_created_iff,
    ModuleSet.mem_updated_iff, ModuleSet.fate_eq_added_iff, ModuleSet.fate_eq_replaced_iff]
  constructor
  · rintro (h | ⟨⟨hd, old, there, differ⟩, more⟩)
    · exact .inl h
    · exact .inr ⟨old, hd, there, differ, by simpa [there] using more⟩
  · rintro (h | ⟨old, hd, there, differ, more⟩)
    · exact .inl h
    · exact .inr ⟨⟨hd, old, there, differ⟩, by simp [there, more]⟩

/-! No name is listed twice: a name that goes is not desired, one that is replaced is, and each of
the lists it is picked from has it once. -/

theorem nodup_removed :
    ((changes current (desired.diff current)).removed.map Module.name).Nodup := by
  have gone : (((desired.diff current).removed.filterMap current.get?).map Module.name).Sublist
      ((desired.diff current).removed.map id) :=
    map_filterMap_sublist (fun n m h => current.name_of_get? h) _
  have replaced := map_filterMap_sublist (g := Module.name) (k := Module.name)
    (fun _ _ h => name_replacedBy current h) (desired.diff current).updated
  rw [List.map_id] at gone
  simp only [changes_eq, List.map_append]
  refine List.nodup_append'.2 ⟨?_, ?_, ?_⟩
  · exact gone.nodup ((desired.ascending_removed current).imp String.ne_of_lt)
  · exact replaced.nodup ((desired.ascending_updated current).imp String.ne_of_lt)
  · intro n hg hr
    have undesired := ((desired.mem_gone_iff current).1 (gone.subset hg)).1
    obtain ⟨m, hm, rfl⟩ := List.mem_map.1 (replaced.subset hr)
    simp [((desired.mem_updated_iff current).1 hm).1] at undesired

theorem nodup_created :
    ((changes current (desired.diff current)).created.map Module.name).Nodup := by
  simp only [changes_eq, List.map_append]
  refine List.nodup_append'.2 ⟨?_, ?_, ?_⟩
  · exact (desired.ascending_created current).imp String.ne_of_lt
  · exact ((desired.ascending_updated current).sublist (List.filter_sublist.map _)).imp
      String.ne_of_lt
  · intro n hc hu
    obtain ⟨m, hm, rfl⟩ := List.mem_map.1 hc
    obtain ⟨m', hm', same_name⟩ := List.mem_map.1 hu
    have absent := ((desired.mem_created_iff current).1 hm).2
    obtain ⟨-, old, there, -⟩ := (desired.mem_updated_iff current).1 (List.mem_filter.1 hm').1
    rw [same_name, absent] at there
    cases there

theorem ascending_adjusted :
    ((changes current (desired.diff current)).adjusted.map (·.2.name)).Pairwise (· < ·) := by
  simp only [changes_eq]
  refine (desired.ascending_updated current).sublist (map_filterMap_sublist ?_ _)
  rintro m ⟨old, new⟩ h
  rw [((adjustedBy_eq_some_iff current).1 h).2.2]

/-! ### The blocks of changes -/

variable (t : Target) (ctx : PlanContext)

theorem removals_block : Block (fun n c => t.removal (desired.fate current n) = some c)
    ((byName (changes current (desired.diff current)).removed).map t.remove) := by
  refine .of_modules (ascending_byName (nodup_removed desired current)) t.module_remove fun c => ?_
  constructor
  · rintro ⟨m, hm, rfl⟩
    rw [t.module_remove]
    rcases (mem_removed_iff desired current).1 (List.mem_mergeSort.1 hm) with h | ⟨new, h⟩ <;>
      rw [h, Target.removal]
  · intro h
    unfold Target.removal at h
    split at h <;> cases h <;> rename_i hf <;> rw [t.module_remove] at hf
    · exact ⟨_, List.mem_mergeSort.2 ((mem_removed_iff desired current).2 (.inl hf)), rfl⟩
    · exact ⟨_, List.mem_mergeSort.2 ((mem_removed_iff desired current).2 (.inr ⟨_, hf⟩)), rfl⟩

theorem adjustments_block : Block (fun n c => t.adjustment (desired.fate current n) = some c)
    ((changes current (desired.diff current)).adjusted.map fun (old, new) => t.update old new) where
  ascending := by
    simpa [List.map_map, Function.comp_def] using ascending_adjusted desired current
  mem_iff c := by
    rw [List.mem_map]
    constructor
    · rintro ⟨⟨old, new⟩, hm, rfl⟩
      rw [t.module_update, (mem_adjusted_iff desired current).1 hm, Target.adjustment]
    · intro h
      unfold Target.adjustment at h
      split at h <;> cases h
      rename_i hf
      rw [t.module_update] at hf
      exact ⟨_, (mem_adjusted_iff desired current).2 hf, rfl⟩

theorem creations_block : Block (fun n c => t.creation ctx (desired.fate current n) = some c)
    ((byName (changes current (desired.diff current)).created).map (ctx.bring t)) := by
  have module_bring : ∀ m, (ctx.bring t m).module = m.name := fun m => t.module_create m _ _
  refine .of_modules (ascending_byName (nodup_created desired current)) module_bring fun c => ?_
  constructor
  · rintro ⟨m, hm, rfl⟩
    rw [module_bring]
    rcases (mem_comes_iff desired current).1 (List.mem_mergeSort.1 hm) with h | ⟨old, h⟩ <;>
      rw [h, Target.creation]
  · intro h
    unfold Target.creation at h
    split at h <;> cases h <;> rename_i hf <;> rw [module_bring] at hf
    · exact ⟨_, List.mem_mergeSort.2 ((mem_comes_iff desired current).2 (.inl hf)), rfl⟩
    · exact ⟨_, List.mem_mergeSort.2 ((mem_comes_iff desired current).2 (.inr ⟨_, hf⟩)), rfl⟩

end

end Planner
end Steward
