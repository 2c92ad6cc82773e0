/-
# What observations have to do with a plan

A plan depends on what is observed only for the modules that are kept. With like sets of modules,
the desired ones and those that are there, the same plan is made, or the same fault is found, unless
the observation of a module that the difference leaves alone is another
(`Planner.plan_observation`). An observation in a desired module, or of one that is about to go, to
change or to be replaced, neither causes a command nor keeps one away.

Plans are compared by the labels of their commands: kind, module and words. The labels of a block
are determined by what its target does about each name (`Block.labels_eq`), and what a target does
about like fates has the same label.

Key definitions: `Command.label`.
Key theorems: `Block.labels_eq`, `Planner.validate_congr`, `Planner.labels_blocks`,
`Planner.plan_observation`.
-/
import Steward.Proofs.Module.Likeness
import Steward.Proofs.Plan.Shape

namespace Steward

variable {σ : Type}

/-! ### Labels -/

/-- What a command is compared by. -/
def Command.label (c : Command Action) : CommandKind × String × String := (c.kind, c.module, c.text)

section

variable {m m' : Module} (like : m.same m' = true)

include like

theorem Module.imageText_eq : m.imageText = m'.imageText := by
  rw [imageText, imageText, image_eq like]

theorem HostOp.text_eq (op : HostOp) : op.text m = op.text m' := by
  unfold text
  rw [Module.name_eq like, Module.imageText_eq like]

theorem Action.text_host (op : HostOp) :
    Labelled.text (Action.host op m) = Labelled.text (Action.host op m') :=
  op.text_eq like

theorem ClusterOp.text_eq (op : ClusterOp) : op.text m = op.text m' := by
  unfold text
  rw [Module.name_eq like, Module.imageText_eq like]

theorem Action.text_cluster (op : ClusterOp) :
    Labelled.text (Action.cluster op m) = Labelled.text (Action.cluster op m') :=
  op.text_eq like

namespace Target

variable (t : Target)

theorem label_create (runtime : RuntimeInfo) (identity : Option Identity) :
    (t.create m runtime identity).label = (t.create m' runtime identity).label := by
  have text : (t.create m runtime identity).text = (t.create m' runtime identity).text := by
    unfold create
    rw [Module.image_eq like, Module.status_eq like]
    split
    · split <;> simp only [Command.text, Command.texts, Action.text_host like]
    · exact Action.text_cluster like _
  simp only [Command.label, kind_create, module_create, Module.name_eq like, text]

theorem label_remove : (t.remove m).label = (t.remove m').label := by
  have text : (t.remove m).text = (t.remove m').text := by
    unfold remove
    split
    · exact Action.text_host like _
    · exact Action.text_cluster like _
  simp only [Command.label, kind_remove, module_remove, Module.name_eq like, text]

theorem label_stop : (t.stop m).label = (t.stop m').label := by
  have text : (t.stop m).text = (t.stop m').text := by
    unfold stop
    split
    · exact Action.text_host like _
    · exact Action.text_cluster like _
  simp only [Command.label, kind_stop, module_stop, Module.name_eq like, text]

theorem text_restart : (t.restart m).text = (t.restart m').text := by
  unfold restart
  split
  · exact Action.text_host like _
  · exact Action.text_cluster like _

/-- What the status was before has no part in the label of an update. -/
theorem label_update (old old' : Module) : (t.update old m).label = (t.update old' m').label := by
  have text : (t.update old m).text = (t.update old' m').text := by
    unfold update
    rw [Module.status_eq like]
    split
    · split <;> simp only [Command.text, Command.texts, Action.text_host like] <;> rfl
    · split <;> simp only [Command.text, Command.texts, Action.text_cluster like]
  simp only [Command.label, kind_update, module_update, Module.name_eq like, text]

end Target

end

/-- What the policy asks for like modules with one observation has one label. -/
theorem Planner.label_policyCommand (p : Planner) {m m' : Module} (like : m.same m' = true)
    (seen : m.observed = m'.observed) (told : RestartState) (now : Instant) :
    (p.policyCommand m told now).map Command.label =
      (p.policyCommand m' told now).map Command.label := by
  have decision : p.policy.decision m told now = p.policy.decision m' told now := by
    simp only [RestartPolicy.decision, seen, Module.status_eq like, Module.restartRule_eq like]
  have past : p.policy.pastIntensiveCare m now = p.policy.pastIntensiveCare m' now := by
    simp only [RestartPolicy.pastIntensiveCare, seen]
  simp only [policyCommand, decision, past, Module.name_eq like]
  split
  · simp only [Option.map_some, Command.label, Command.text, Command.texts,
      p.target.text_restart like]
    rfl
  · rw [Option.map_some, Option.map_some, p.target.label_stop like]
  · rfl
  · rfl
  · rfl

/-! What is done about like fates has the same label. -/

namespace Fate.Alike

variable {f f' : Fate} (alike : f.Alike f') (t : Target)

include alike

theorem label_removal :
    (t.removal f).map Command.label = (t.removal f').map Command.label := by
  cases alike with
  | gone old | replaced old _ => exact congrArg some (t.label_remove old)
  | absent | added | adjusted | kept => rfl

theorem label_adjustment :
    (t.adjustment f).map Command.label = (t.adjustment f').map Command.label := by
  cases alike with
  | adjusted _ new => exact congrArg some (t.label_update new _ _)
  | absent | gone | added | replaced | kept => rfl

theorem label_creation (ctx : PlanContext) :
    (t.creation ctx f).map Command.label = (t.creation ctx f').map Command.label := by
  cases alike with
  | added new | replaced _ new =>
    simp only [Target.creation, PlanContext.bring, Option.map_some, t.label_create new,
      Module.name_eq new]
  | absent | gone | adjusted | kept => rfl

theorem label_upkeep (p : Planner) (now : Instant) (told : RestartState) :
    (p.upkeep now told f).map Command.label = (p.upkeep now told f').map Command.label := by
  cases alike with
  | kept like seen => exact p.label_policyCommand like seen told now
  | absent | gone | added | adjusted | replaced => rfl

end Fate.Alike

/-! ### Blocks -/

namespace Block

variable {called called' : String → Option (Command Action)} {cs cs' : List (Command Action)}

theorem mem_labels_iff (b : Block (fun n c => called n = some c) cs)
    {l : CommandKind × String × String} :
    l ∈ cs.map Command.label ↔ (called l.2.1).map Command.label = some l := by
  rw [List.mem_map, Option.map_eq_some_iff]
  constructor
  · rintro ⟨c, hc, rfl⟩
    exact ⟨c, (b.mem_iff c).1 hc, rfl⟩
  · rintro ⟨c, hc, rfl⟩
    exact ⟨c, (b.mem_iff c).2 hc, rfl⟩

theorem ascending_labels {Called : String → Command Action → Prop} (b : Block Called cs) :
    (cs.map Command.label).Pairwise fun l l' => l.2.1 < l'.2.1 :=
  List.pairwise_map.2 (List.pairwise_map.1 b.ascending)

/-- Two blocks have the same labels if what is called for under each name has. -/
theorem labels_eq (b : Block (fun n c => called n = some c) cs)
    (b' : Block (fun n c => called' n = some c) cs')
    (alike : ∀ n, (called n).map Command.label = (called' n).map Command.label) :
    cs.map Command.label = cs'.map Command.label := by
  refine NameMap.eq_of_ascending b.ascending_labels b'.ascending_labels fun l => ?_
  rw [b.mem_labels_iff, b'.mem_labels_iff, alike]

end Block

namespace Planner

variable (p : Planner) (st : StateStore σ) {desired desired' current current' : ModuleSet}
  (ctx : PlanContext) (now : Instant) (s : σ)

/-! ### Validation -/

theorem validateModules_congr (t : Target) : ∀ {ms ms' : List Module},
    ModuleSet.sameList ms ms' = true →
      ∀ seen, validateModules t seen ms = validateModules t seen ms'
  | [], [], _, _ => rfl
  | [], _ :: _, h, _ => nomatch h
  | _ :: _, [], h, _ => nomatch h
  | m :: ms, m' :: ms', h, seen => by
    rw [ModuleSet.sameList, Bool.and_eq_true] at h
    obtain ⟨like, rest⟩ := h
    have name := Module.name_eq like
    have taken : t.validate m = t.validate m' := by
      simp only [Target.validate, Module.type_eq like, Module.image_eq like, name]
    simp only [validateModules, Module.identityKey, name, taken, validateModules_congr t rest]

/-- Like sets are refused for the same fault. -/
theorem validate_congr (wanted : desired.same desired' = true) :
    p.validate desired ctx = p.validate desired' ctx := by
  rw [validate, validate, validateModules_congr p.target wanted]

/-! ### Commands -/

/-- Which modules are asked for, and nothing else about them, tells what asking the store does. -/
theorem policyCommands_asks : ∀ {ms ms' : List Module}, ms.map Module.name = ms'.map Module.name →
    ∀ s, (p.policyCommands st now ms s).2 = (p.policyCommands st now ms' s).2
  | [], [], _, _ => rfl
  | [], _ :: _, h, _ => nomatch h
  | _ :: _, [], h, _ => nomatch h
  | m :: ms, m' :: ms', h, s => by
    rw [List.map_cons, List.map_cons, List.cons.injEq] at h
    simp only [policyCommands, h.1]
    exact policyCommands_asks h.2 _

section

variable (alike : ∀ n, (desired.fate current n).Alike (desired'.fate current' n))

include alike

theorem keptNames_congr : keptNames desired current = keptNames desired' current' := by
  refine NameMap.eq_of_ascending (f := id) (ascending_keptNames desired current)
    (ascending_keptNames desired' current') fun n => ?_
  rw [mem_keptNames_iff, mem_keptNames_iff, (alike n).kept_iff]

/-- Names with like fates have commands with the same labels. -/
theorem labels_blocks :
    (p.blocks st desired current ctx now s).map Command.label =
      (p.blocks st desired' current' ctx now s).map Command.label := by
  have upkeep : ∀ desired current, Block
      (fun n c => p.upkeep now (st.told (keptNames desired current) s n)
        (desired.fate current n) = some c)
      (p.policyCommands st now (settled desired current (desired.diff current)) s).1 :=
    fun desired current => by
      simpa only [upkeep_eq_some_iff] using p.upkeep_block st desired current now s
  have removed := (removals_block desired current p.target).labels_eq
    (removals_block desired' current' p.target) fun n => (alike n).label_removal p.target
  have adjusted := (adjustments_block desired current p.target).labels_eq
    (adjustments_block desired' current' p.target) fun n => (alike n).label_adjustment p.target
  have created := (creations_block desired current p.target ctx).labels_eq
    (creations_block desired' current' p.target ctx) fun n =>
      (alike n).label_creation p.target ctx
  have kept := (upkeep desired current).labels_eq (upkeep desired' current') fun n => by
    rw [keptNames_congr alike]
    exact (alike n).label_upkeep p now _
  simp only [blocks, List.map_append, removed, adjusted, created, kept]

end

/-! ### Plans -/

/-- **Observations count only where they may.** Let two sets of desired modules be declared alike,
and two sets of modules that are there, with the same observations under the names that the
difference leaves alone. Then the same fault is found with either, and the store is not asked; or a
plan is made with either, the two plans agree command by command in kind, module and words, and the
store was asked the same. -/
theorem plan_observation (wanted : desired.same desired' = true)
    (there : current.same current' = true)
    (seen : ∀ n, (desired.diff current).touches n = false →
      (current.get? n).bind Module.observed = (current'.get? n).bind Module.observed) :
    (∃ f, p.plan st desired current ctx now s = (.error (.plan f), s) ∧
      p.plan st desired' current' ctx now s = (.error (.plan f), s)) ∨
    ∃ plan plan' s', p.plan st desired current ctx now s = (.ok plan, s') ∧
      p.plan st desired' current' ctx now s = (.ok plan', s') ∧
      plan.labels = plan'.labels := by
  have alike := ModuleSet.fate_alike wanted there seen
  have labels := p.labels_blocks st ctx now s alike
  have same_valid := p.validate_congr ctx wanted
  cases valid : p.validate desired ctx with
  | error f =>
    rw [valid] at same_valid
    exact .inl ⟨f, by simp only [plan, valid], by simp only [plan, ← same_valid]⟩
  | ok =>
    have planned := p.plan_eq st desired current ctx now s valid
    have planned' := p.plan_eq st desired' current' ctx now s (same_valid.symm.trans valid)
    rw [← p.policyCommands_asks st now (keptNames_congr alike)] at planned'
    exact .inr ⟨_, _, _, planned, planned', labels⟩

/-! A sample of a module that is kept, with any observation in its desired declaration, and one that
goes, with any observation of it. -/

namespace Sample

/-- The module that is to be kept. -/
def remark (o : Option Observed) : ModuleSet := .insert .empty { crashed with observed := o }

/-- It is there, with one that is not desired. -/
def company (o : Option Observed) : ModuleSet :=
  ModuleSet.insert (.insert .empty crashed) { running "e" "e:1" with observed := o }

end Sample

open Sample in
theorem plan_observation_sample :
    ∃ plan plan' s',
      planner.plan memoryStore (remark none) (company none) {} .epoch ∅ = (.ok plan, s') ∧
      planner.plan memoryStore (remark (some { status := .running }))
        (company (some { status := .failed })) {} .epoch ∅ = (.ok plan', s') ∧
      plan.labels = plan'.labels := by
  have seen : ∀ n, ((remark none).diff (company none)).touches n = false →
      ((company none).get? n).bind Module.observed =
        ((company (some { status := .failed })).get? n).bind Module.observed := by
    intro n untouched
    have found : ∀ o, n ≠ "e" → (company o).get? n = (ModuleSet.insert .empty crashed).get? n :=
      fun o other => (ModuleSet.get?_insert _ _ n).trans (if_neg other)
    by_cases goes : n = "e"
    · rw [goes] at untouched
      exact absurd untouched (by decide)
    · rw [found _ goes, found _ goes]
  rcases plan_observation planner memoryStore {} .epoch ∅
      (show (remark none).same (remark (some { status := .running })) = true by decide)
      (show (company none).same (company (some { status := .failed })) = true by decide) seen with
    ⟨f, fault, -⟩ | ⟨plan, plan', s', planned, planned', labels⟩
  · rw [plan_eq _ _ _ _ _ _ _ (by decide)] at fault
    cases fault
  · exact ⟨plan, plan', s', planned, planned', labels⟩

end Planner
end Steward
