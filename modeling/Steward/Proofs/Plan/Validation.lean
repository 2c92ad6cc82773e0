/-
# What can be planned

Something can be planned for the desired modules if their names stand for different identities, the
target can run each of them, and the names that come with identities stand for different ones as
well (`Planner.Plannable`). If not, the first fault is told (`Planner.Refused`): that of the first
module, in the order of the names, which has the identity of an earlier one or which the target
cannot run, and only if there is none that of the first name with the identity of an earlier one.

Both lists are checked in the same way: entry by entry, with what was seen so far, up to the first
fault (`Planner.checkEach`). What was seen is what lies before, so whether a fault is found and
which it is can be said without it (`Planner.checkEach_ok_iff`, `Planner.checkEach_error_iff`).

What is planned for modules that pass has all that it needs. A pull has an image
(`Planner.Origin.complete`), and no command fails because of what it is made from
(`Planner.plan_validated`).

Key definitions: `Target.Runs`, `Target.Refuses`, `Admissible`, `FirstFault`, `Planner.Plannable`,
`Planner.Refused`, `Action.Complete`, `Host.FailsWith`.
Key theorems: `Planner.checkEach_cases`, `FirstFault.unique`, `Planner.validate_ok_iff`,
`Planner.validate_error_iff`, `Planner.plan_validated`.
-/
import Steward.Proofs.Cycle.Outcomes
import Steward.Proofs.Plan.Shape

namespace Steward

variable {α σ : Type}

/-! ### What a target can run -/

namespace Target

/-- The target takes the type of the module, in whatever case, and the module names an image that
is not blank. -/
structure Runs (t : Target) (m : Module) : Prop where
  type : ∃ type ∈ t.types, Text.sameLetters type m.type = true
  image : ∃ image, m.image = some image ∧ Text.allBlank image = false

/-- Why the target cannot run a module. The type is looked at before the image. -/
inductive Refuses (t : Target) (m : Module) : PlanFault → Prop
  | type : (∀ type ∈ t.types, Text.sameLetters type m.type = false) →
    Refuses t m (.unsupported m.name t.place.text ("type '" ++ m.type ++ "' is not supported"))
  | image : (∃ type ∈ t.types, Text.sameLetters type m.type = true) →
    (∀ image, m.image = some image → Text.allBlank image = true) →
    Refuses t m (.unsupported m.name t.place.text "config.image is required")

variable {t : Target} {m : Module}

theorem validate_ok_iff : t.validate m = .ok () ↔ t.Runs m := by
  have taken : (!t.types.any (Text.sameLetters · m.type)) = true ↔
      ¬ ∃ type ∈ t.types, Text.sameLetters type m.type = true := by simp
  have blank : m.image.all Text.allBlank = true ↔
      ¬ ∃ image, m.image = some image ∧ Text.allBlank image = false := by
    cases m.image <;> simp
  unfold validate
  constructor
  · intro h
    split at h
    · cases h
    · rename_i type
      split at h
      · cases h
      · rename_i image
        rw [taken, not_not] at type
        rw [blank, not_not] at image
        exact ⟨type, image⟩
  · rintro ⟨type, image⟩
    rw [if_neg fun h => taken.1 h type, if_neg fun h => blank.1 h image]

theorem validate_error_iff {f : PlanFault} : t.validate m = .error f ↔ t.Refuses m f := by
  unfold validate
  constructor
  · intro h
    split at h
    · rename_i type
      cases h
      exact .type (by simpa using type)
    · rename_i type
      split at h
      · rename_i blank
        cases h
        exact .image (by simpa using type) fun image named => by simpa [named] using blank
      · cases h
  · rintro (type | ⟨⟨type, taken, same⟩, blank⟩)
    · rw [if_pos (by simpa using type)]
    · have known : t.types.any (Text.sameLetters · m.type) = true :=
        List.any_eq_true.2 ⟨type, taken, same⟩
      have none : m.image.all Text.allBlank = true := by
        cases named : m.image with
        | none => rfl
        | some image => exact blank image named
      rw [known, none]
      rfl

end Target

/-! ### The first fault of a list -/

section

variable (key name : α → String) (takes : α → Prop) (refuses : α → PlanFault → Prop)

/-- The entries have different keys, and each is taken. -/
structure Admissible (as : List α) : Prop where
  distinct : (as.map key).Nodup
  taken : ∀ a ∈ as, takes a

/-- The fault of an entry after some others: its key is that of exactly one of them, or it has a key
of its own and is refused. -/
inductive Fault (earlier : List α) (a : α) : PlanFault → Prop
  | shared {first : α} : first ∈ earlier → key first = key a →
    (∀ b ∈ earlier, key b = key a → b = first) →
    Fault earlier a (.sharedIdentity (name first) (name a))
  | refused {f : PlanFault} : (∀ b ∈ earlier, key b ≠ key a) → refuses a f → Fault earlier a f

/-- The fault of the first entry that has one. -/
def FirstFault (as : List α) (f : PlanFault) : Prop :=
  ∃ earlier a later, as = earlier ++ a :: later ∧ Admissible key takes earlier ∧
    Fault key name refuses earlier a f

end

/-- What a check passes, and with which fault it fails. -/
structure Judges (check : α → Except PlanFault Unit) (takes : α → Prop)
    (refuses : α → PlanFault → Prop) : Prop where
  ok_iff : ∀ a, check a = .ok () ↔ takes a
  error_iff : ∀ a f, check a = .error f ↔ refuses a f

theorem Target.judges (t : Target) : Judges t.validate t.Runs t.Refuses :=
  ⟨fun _ => validate_ok_iff, fun _ _ => validate_error_iff⟩

section

variable {key name : α → String} {takes : α → Prop} {refuses : α → PlanFault → Prop}
  {check : α → Except PlanFault Unit} {as earlier : List α} {a : α} {f f' : PlanFault}

theorem Judges.not_taken (judges : Judges check takes refuses) (refused : refuses a f) :
    ¬ takes a := by
  intro taken
  have passed := (judges.ok_iff a).2 taken
  rw [(judges.error_iff a f).2 refused] at passed
  cases passed

theorem Judges.agree (judges : Judges check takes refuses) (h : refuses a f) (h' : refuses a f') :
    f = f' :=
  Except.error.inj (((judges.error_iff a f).2 h).symm.trans ((judges.error_iff a f').2 h'))

theorem Admissible.nil : Admissible key takes [] :=
  ⟨.nil, fun _ h => nomatch h⟩

theorem Admissible.snoc (sound : Admissible key takes earlier) (own : ∀ b ∈ earlier, key b ≠ key a)
    (taken : takes a) : Admissible key takes (earlier ++ [a]) where
  distinct := by
    rw [List.map_append, List.nodup_append]
    refine ⟨sound.distinct, List.nodup_singleton _, fun k hk k' hk' => ?_⟩
    obtain ⟨b, hb, rfl⟩ := List.mem_map.1 hk
    rw [List.mem_singleton.1 hk']
    exact own b hb
  taken b hb := by
    rcases List.mem_append.1 hb with hb | hb
    · exact sound.taken b hb
    · exact List.mem_singleton.1 hb ▸ taken

/-- With an entry that is at fault a list is not admissible, whatever comes after it. -/
theorem Fault.not_admissible (judges : Judges check takes refuses)
    (fault : Fault key name refuses earlier a f) (later : List α) :
    ¬ Admissible key takes (earlier ++ a :: later) := by
  intro sound
  have own : ∀ b ∈ earlier, key b ≠ key a := fun b hb same =>
    (List.nodup_append.1 (List.map_append ▸ sound.distinct)).2.2 (key b) (List.mem_map_of_mem hb)
      (key a) (by simp) same
  cases fault with
  | shared before same => exact own _ before same
  | refused _ refused =>
    exact judges.not_taken refused (sound.taken a (List.mem_append_right _ List.mem_cons_self))

theorem Fault.unique (judges : Judges check takes refuses)
    (h : Fault key name refuses earlier a f) (h' : Fault key name refuses earlier a f') :
    f = f' := by
  cases h with
  | shared before same only =>
    cases h' with
    | shared before' same' => rw [only _ before' same']
    | refused own => exact absurd same (own _ before)
  | refused own refused =>
    cases h' with
    | shared before same => exact absurd same (own _ before)
    | refused _ refused' => exact judges.agree refused refused'

theorem FirstFault.not_admissible (judges : Judges check takes refuses)
    (h : FirstFault key name takes refuses as f) : ¬ Admissible key takes as := by
  obtain ⟨earlier, a, later, rfl, -, fault⟩ := h
  exact fault.not_admissible judges later

/-- A list has one first fault at most. -/
theorem FirstFault.unique (judges : Judges check takes refuses)
    (h : FirstFault key name takes refuses as f) (h' : FirstFault key name takes refuses as f') :
    f = f' := by
  obtain ⟨front, a, later, split, sound, fault⟩ := h
  obtain ⟨front', a', later', split', sound', fault'⟩ := h'
  rw [split] at split'
  -- neither entry comes before the other, since all that comes before either is admissible
  rcases List.append_eq_append_iff.1 split' with ⟨mid, rfl, rest⟩ | ⟨mid, rfl, rest⟩
  · cases mid with
    | nil =>
      cases rest
      rw [List.append_nil] at fault'
      exact fault.unique judges fault'
    | cons b mid =>
      cases rest
      exact absurd sound' (fault.not_admissible judges mid)
  · cases mid with
    | nil =>
      cases rest
      rw [List.append_nil] at fault
      exact fault.unique judges fault'
    | cons b mid =>
      cases rest
      exact absurd sound (fault'.not_admissible judges mid)

end

/-! ### Checking a list -/

namespace Planner

section

variable (key name : α → String) (check : α → Except PlanFault Unit)

/-- Checks entries in order: none may have the key of an earlier one, and each must pass the check.
The keys seen so far come with the names of the entries that had them. -/
def checkEach : (seen : List (String × String)) → List α → Except PlanFault Unit
  | _, [] => .ok ()
  | seen, a :: as =>
    match seen.lookup (key a) with
    | some first => .error (.sharedIdentity first (name a))
    | none =>
      match check a with
      | .error e => .error e
      | .ok () => checkEach ((key a, name a) :: seen) as

/-- What was seen after some entries. -/
def seenIn (earlier : List α) : List (String × String) :=
  (earlier.map fun a => (key a, name a)).reverse

theorem seenIn_snoc (earlier : List α) (a : α) :
    seenIn key name (earlier ++ [a]) = (key a, name a) :: seenIn key name earlier := by
  simp [seenIn]

variable {check} {takes : α → Prop} {refuses : α → PlanFault → Prop}
  (judges : Judges check takes refuses)

include judges

/-- After entries that are admissible the check passes and all entries are, or it finds the first
fault. -/
theorem checkEach_after : ∀ (as earlier : List α), Admissible key takes earlier →
    checkEach key name check (seenIn key name earlier) as = .ok () ∧
      Admissible key takes (earlier ++ as) ∨
    ∃ f, checkEach key name check (seenIn key name earlier) as = .error f ∧
      FirstFault key name takes refuses (earlier ++ as) f
  | [], earlier, sound => .inl ⟨rfl, (List.append_nil earlier).symm ▸ sound⟩
  | a :: as, earlier, sound => by
    rw [checkEach]
    split
    · rename_i first seen
      have pair : (key a, first) ∈ seenIn key name earlier := by
        obtain ⟨front, back, split, -⟩ := List.lookup_eq_some_iff.1 seen
        rw [split]
        exact List.mem_append_right _ List.mem_cons_self
      rw [seenIn, List.mem_reverse, List.mem_map] at pair
      obtain ⟨b, before, both⟩ := pair
      obtain ⟨same, rfl⟩ := Prod.mk.inj both
      exact .inr ⟨_, rfl, earlier, a, as, rfl, sound, .shared before same fun c hc hk =>
        List.inj_on_of_nodup_map sound.distinct hc before (hk.trans same.symm)⟩
    · rename_i unseen
      have own : ∀ b ∈ earlier, key b ≠ key a := fun b hb same => by
        have pair : (key b, name b) ∈ seenIn key name earlier := by
          rw [seenIn, List.mem_reverse]
          exact List.mem_map_of_mem hb
        simpa [same] using List.lookup_eq_none_iff.1 unseen _ pair
      cases checked : check a with
      | error e =>
        exact .inr ⟨e, rfl, earlier, a, as, rfl, sound,
          .refused own ((judges.error_iff a e).1 checked)⟩
      | ok =>
        have later := checkEach_after as (earlier ++ [a])
          (sound.snoc own ((judges.ok_iff a).1 checked))
        rwa [seenIn_snoc, List.append_assoc, List.singleton_append] at later

theorem checkEach_cases (as : List α) :
    checkEach key name check [] as = .ok () ∧ Admissible key takes as ∨
      ∃ f, checkEach key name check [] as = .error f ∧ FirstFault key name takes refuses as f :=
  checkEach_after key name judges as [] .nil

theorem checkEach_ok_iff (as : List α) :
    checkEach key name check [] as = .ok () ↔ Admissible key takes as := by
  rcases checkEach_cases key name judges as with ⟨passed, sound⟩ | ⟨f, found, first⟩
  · exact iff_of_true passed sound
  · exact iff_of_false (found ▸ nofun) (first.not_admissible judges)

theorem checkEach_error_iff (as : List α) {f : PlanFault} :
    checkEach key name check [] as = .error f ↔ FirstFault key name takes refuses as f := by
  rcases checkEach_cases key name judges as with ⟨passed, sound⟩ | ⟨f', found, first⟩
  · exact iff_of_false (passed ▸ nofun) fun first => first.not_admissible judges sound
  · constructor
    · intro found'
      exact Except.error.inj (found.symm.trans found') ▸ first
    · intro first'
      exact first.unique judges first' ▸ found

end

/-! ### Validation -/

theorem validateModules_eq (t : Target) : ∀ (ms : List Module) (seen : List (String × String)),
    validateModules t seen ms = checkEach Module.identityKey Module.name t.validate seen ms
  | [], _ => rfl
  | m :: ms, seen => by
    rw [validateModules, checkEach]
    cases seen.lookup m.identityKey with
    | some => rfl
    | none =>
      cases t.validate m with
      | error => rfl
      | ok => exact validateModules_eq t ms _

theorem validateNames_eq : ∀ (ns : List String) (seen : List (String × String)),
    validateNames seen ns = checkEach Text.normalize id (fun _ => .ok ()) seen ns
  | [], _ => rfl
  | n :: ns, seen => by
    rw [validateNames, checkEach]
    cases seen.lookup (Text.normalize n) with
    | some => rfl
    | none => exact validateNames_eq ns _

/-- Something can be planned for the desired modules. -/
structure Plannable (t : Target) (desired : ModuleSet) (ctx : PlanContext) : Prop where
  modules : Admissible Module.identityKey t.Runs desired.toList
  identities : (ctx.identities.keys.map Text.normalize).Nodup

/-- Why nothing can be planned for the desired modules: the fault of the first module that has one,
or, if none has, that of the first name with the identity of an earlier one. -/
inductive Refused (t : Target) (desired : ModuleSet) (ctx : PlanContext) : PlanFault → Prop
  | module {f : PlanFault} :
    FirstFault Module.identityKey Module.name t.Runs t.Refuses desired.toList f →
    Refused t desired ctx f
  | identity {f : PlanFault} : Admissible Module.identityKey t.Runs desired.toList →
    FirstFault Text.normalize id (fun _ => True) (fun _ _ => False) ctx.identities.keys f →
    Refused t desired ctx f

variable (p : Planner) (desired : ModuleSet) (ctx : PlanContext)

/-- A name as such is always taken. -/
theorem judges_names : Judges (fun _ : String => .ok ()) (fun _ => True) fun _ _ => False :=
  ⟨fun _ => by simp, fun _ _ => by simp⟩

theorem validate_ok_iff : p.validate desired ctx = .ok () ↔ Plannable p.target desired ctx := by
  have modules := checkEach_ok_iff Module.identityKey Module.name p.target.judges desired.toList
  have names := checkEach_ok_iff Text.normalize id judges_names ctx.identities.keys
  rw [← validateModules_eq] at modules
  rw [← validateNames_eq] at names
  rw [validate]
  constructor
  · intro passed
    split at passed
    · cases passed
    · rename_i _ first
      exact ⟨modules.1 first, (names.1 passed).distinct⟩
  · intro plannable
    rw [modules.2 plannable.modules]
    exact names.2 ⟨plannable.identities, fun _ _ => trivial⟩

theorem validate_error_iff {f : PlanFault} :
    p.validate desired ctx = .error f ↔ Refused p.target desired ctx f := by
  have modules := checkEach_ok_iff Module.identityKey Module.name p.target.judges desired.toList
  have module {f : PlanFault} :=
    checkEach_error_iff Module.identityKey Module.name p.target.judges desired.toList (f := f)
  have name := checkEach_error_iff Text.normalize id judges_names ctx.identities.keys (f := f)
  rw [← validateModules_eq] at modules module
  rw [← validateNames_eq] at name
  rw [validate]
  constructor
  · intro found
    split at found
    · rename_i e first
      cases found
      exact .module (module.1 first)
    · rename_i _ passed
      exact .identity (modules.1 passed) (name.1 found)
  · rintro (first | ⟨sound, first⟩)
    · rw [module.2 first]
    · rw [modules.2 sound]
      exact name.2 first

end Planner

/-! ### What commands are made from -/

/-- A leaf has what it needs, which is an image if it is a pull. -/
def Action.Complete : Action → Prop
  | .host (.pull image _) _ => image.isSome = true
  | _ => True

namespace Target

variable {t : Target} {m : Module}

theorem complete_create (runs : t.Runs m) (runtime : RuntimeInfo) (identity : Option Identity) :
    ∀ a ∈ (t.create m runtime identity).leaves, a.Complete := by
  obtain ⟨image, named, -⟩ := runs.image
  cases place : t.place <;> by_cases run : m.status = .running <;>
    simp [create, place, run, named, Command.leaves, Command.leavesOf, Action.Complete]

/-- On a host the first thing is to pull the image. -/
theorem leaves_create (place : t.place = .host) {image : String} (named : m.image = some image)
    (runtime : RuntimeInfo) (identity : Option Identity) :
    ∃ rest, (t.create m runtime identity).leaves =
      .host (.pull (some image) (runtime.credentialsFor image)) m :: rest := by
  simp only [create, place, named, Option.bind_some]
  exact ⟨_, rfl⟩

theorem complete_update (old : Module) : ∀ a ∈ (t.update old m).leaves, a.Complete := by
  cases place : t.place <;> cases status : m.status <;>
    simp [update, place, status, Command.leaves, Command.leavesOf, Action.Complete]

theorem complete_remove : ∀ a ∈ (t.remove m).leaves, a.Complete := by
  cases place : t.place <;> simp [remove, place, Command.leaves, Action.Complete]

theorem complete_stop : ∀ a ∈ (t.stop m).leaves, a.Complete := by
  cases place : t.place <;> simp [stop, place, Command.leaves, Action.Complete]

theorem complete_restart : ∀ a ∈ (t.restart m).leaves, a.Complete := by
  cases place : t.place <;> simp [restart, place, Command.leaves, Action.Complete]

end Target

namespace Planner

variable {p : Planner} {st : StateStore σ} {desired current : ModuleSet} {ctx : PlanContext}
  {now : Instant} {s s' : σ} {plan : Plan Action} {c : Command Action}

/-- What a planned command is made from. -/
inductive Origin (p : Planner) (desired : ModuleSet) (ctx : PlanContext) (now : Instant) :
    Command Action → Prop
  | gone (old : Module) : Origin p desired ctx now (p.target.remove old)
  | adjusted (old new : Module) : Origin p desired ctx now (p.target.update old new)
  | brought {m : Module} : m ∈ desired.toList → Origin p desired ctx now (ctx.bring p.target m)
  | due {m : Module} {told : RestartState} {c : Command Action} : Due p now m told c →
    Origin p desired ctx now c

theorem origin_of_mem (hc : c ∈ p.blocks st desired current ctx now s) :
    Origin p desired ctx now c := by
  have called := p.mem_commandsFor st desired current ctx now s hc
  have brought {m : Module} (hd : desired.get? c.module = some m) : m ∈ desired.toList := by
    have name := desired.name_of_get? hd
    exact desired.mem_toList_iff.2 (name ▸ hd)
  cases hf : desired.fate current c.module with
  | absent => simp [hf, commandsFor] at called
  | gone old =>
    rw [hf, commandsFor, List.mem_singleton] at called
    exact called ▸ .gone old
  | added new =>
    rw [hf, commandsFor, List.mem_singleton] at called
    exact called ▸ .brought (brought (ModuleSet.fate_eq_added_iff.1 hf).1)
  | adjusted old new =>
    rw [hf, commandsFor, List.mem_singleton] at called
    exact called ▸ .adjusted old new
  | replaced old new =>
    rw [hf, commandsFor, List.mem_pair] at called
    rcases called with own | own
    · exact own ▸ .gone old
    · exact own ▸ .brought (brought (ModuleSet.fate_eq_replaced_iff.1 hf).1)
  | kept m =>
    rw [hf, commandsFor, Option.mem_toList] at called
    exact .due (Due.iff_policyCommand.2 called)

/-- All leaves of what is planned have what they need. -/
theorem Origin.complete (runs : ∀ m ∈ desired.toList, p.target.Runs m)
    (origin : Origin p desired ctx now c) : ∀ a ∈ c.leaves, a.Complete := by
  cases origin with
  | gone => exact Target.complete_remove
  | adjusted old => exact Target.complete_update old
  | brought hm => exact Target.complete_create (runs _ hm) _ _
  | due due =>
    cases due with
    | restart =>
      intro a ha
      simp only [Command.leaves, Command.leavesOf, List.append_nil, List.cons_append,
        List.nil_append, List.mem_cons] at ha
      rcases ha with rfl | ha
      · exact trivial
      · exact Target.complete_restart a ha
    | stop => exact Target.complete_stop
    | reset =>
      intro a ha
      rw [List.mem_singleton.1 ha]
      exact trivial

/-- What is planned as a creation brings a desired module. -/
theorem Origin.bring (origin : Origin p desired ctx now c) (kind : c.kind = .create) :
    ∃ m ∈ desired.toList, c = ctx.bring p.target m := by
  cases origin with
  | gone => simp at kind
  | adjusted => simp at kind
  | brought hm => exact ⟨_, hm, rfl⟩
  | due due => rcases due.kind with other | other | other <;> simp [other] at kind

end Planner

/-! ### Failures -/

/-- Every failure of the runtime, and of a change to the store, is of some kind. -/
structure Host.FailsWith (h : Host σ) (P : Error → Prop) : Prop where
  request : ∀ t r s e, (h.request t r s).1 = .error e → P e
  update : ∀ n f s e, (h.store.update n f s).1 = .error e → P e
  putOrUpdate : ∀ n v f s e, (h.store.putOrUpdate n v f s).1 = .error e → P e

/-- The error puts it down to the configuration of a module. -/
def Error.IsMisconfigured (e : Error) : Prop :=
  ∃ name message, e = .command (.misconfigured name message)

/-- A leaf that has what it needs fails only if it is cancelled or as the host does. -/
theorem Action.execute_error {h : Host σ} {P : Error → Prop} (fails : h.FailsWith P)
    (cut : ∀ n, P (.command (.cancelled n))) {a : Action} (complete : a.Complete) (t : Token)
    (s : σ) (e : Error) (failed : (a.execute h t s).1 = .error e) : P e := by
  simp only [execute, Host.ensureLive] at failed
  cases look : h.isCancelled t s with
  | mk cancelled s₁ =>
    rw [look] at failed
    cases cancelled with
    | true =>
      cases failed
      exact cut _
    | false =>
      dsimp only at failed
      cases a with
      | host op m =>
        cases op with
        | pull image credentials =>
          cases image with
          | none => cases complete
          | some image => exact fails.request _ _ _ e failed
        | _ => exact fails.request _ _ _ e failed
      | cluster op m => exact fails.request _ _ _ e failed
      | recordRestart name =>
        have stored := fails.putOrUpdate name (.first (h.now s₁)) (.record (h.now s₁)) s₁
        simp only [carryOut, record] at failed
        split at failed
        · cases failed
        · cases failed
        · rename_i e' s₂ _ refused
          cases failed
          exact stored e (by rw [refused])
      | resetRestarts name =>
        have stored := fails.update name .reset s₁
        simp only [carryOut, reset] at failed
        split at failed
        · cases failed
        · cases failed
        · rename_i e' s₂ _ refused
          cases failed
          exact stored e (by rw [refused])

namespace Planner

variable (p : Planner) (st : StateStore σ) (desired current : ModuleSet) (ctx : PlanContext)
  (now : Instant) (s : σ)

/-- **What can be planned.** There is a plan exactly if the names of the desired modules stand for
different identities, the target can run each module, and the names that come with identities stand
for different ones. Otherwise planning fails with the first fault, and leaves the store alone. What
is planned has what it needs: to create a module on a host is first of all to pull its image, and no
command fails for a fault in the configuration unless the runtime or the store reports one. -/
theorem plan_validated :
    ((∃ plan s', p.plan st desired current ctx now s = (.ok plan, s')) ↔
      Plannable p.target desired ctx) ∧
    (∀ e s', p.plan st desired current ctx now s = (.error e, s') ↔
      s' = s ∧ ∃ f, e = .plan f ∧ Refused p.target desired ctx f) ∧
    ∀ plan s', p.plan st desired current ctx now s = (.ok plan, s') → ∀ c ∈ plan.commands,
      (c.kind = .create → ∃ m ∈ desired.toList, ∃ image, m.image = some image ∧
        Text.allBlank image = false ∧ c = ctx.bring p.target m ∧
        (p.target.place = .host → ∃ rest, c.leaves =
          .host (.pull (some image) (ctx.runtime.credentialsFor image)) m :: rest)) ∧
      ∀ (τ : Type) (h : Host τ), h.FailsWith (¬ ·.IsMisconfigured) →
        ∀ t x e, (c.execute (Action.behaviour h) t x).1 = .error e → ¬ e.IsMisconfigured := by
  refine ⟨?_, ?_, ?_⟩
  · rw [← validate_ok_iff]
    constructor
    · rintro ⟨plan, s', planned⟩
      exact (plan_ok planned).1
    · exact fun valid => ⟨_, _, p.plan_eq st desired current ctx now s valid⟩
  · intro e s'
    constructor
    · intro failed
      cases valid : p.validate desired ctx with
      | ok =>
        rw [p.plan_eq st desired current ctx now s valid] at failed
        cases failed
      | error f =>
        simp only [plan, valid] at failed
        cases failed
        exact ⟨rfl, f, rfl, (validate_error_iff p desired ctx).1 valid⟩
    · rintro ⟨rfl, f, rfl, refused⟩
      simp only [plan, (validate_error_iff p desired ctx).2 refused]
  · intro plan s' planned c hc
    obtain ⟨valid, blocks, -⟩ := plan_ok planned
    have plannable := (validate_ok_iff p desired ctx).1 valid
    rw [blocks] at hc
    constructor
    · intro kind
      obtain ⟨m, hm, rfl⟩ := (origin_of_mem hc).bring kind
      obtain ⟨image, named, inked⟩ := (plannable.modules.taken m hm).image
      exact ⟨m, hm, image, named, inked, rfl, fun place =>
        Target.leaves_create place named ctx.runtime _⟩
    · intro τ h fails t x e failed
      exact c.execute_error (fun a ha => Action.execute_error fails (fun n => by
        rintro ⟨name, message, same⟩
        cases same) ((origin_of_mem hc).complete plannable.modules.taken a ha)) t x e failed

/-! A sample in which a module is at fault in both ways, and one in which all requests of a plan
fail. -/

namespace Sample

/-- Two modules with one identity; the target does not take the type of the second. -/
def twins : ModuleSet :=
  [running "A" "a:1", { running "a" "a:1" with type := "vm" }].foldl ModuleSet.insert .empty

/-- A host of which the runtime is out of reach. -/
def unreachable : Host States where
  pause := id
  cancelled _ := false
  now _ := .epoch
  wait _ s := (false, s)
  request _ r s := (.error (.command (.failed "reach" r.module "no runtime")), s)
  store := memoryStore

theorem unreachable_failsWith : unreachable.FailsWith (¬ ·.IsMisconfigured) where
  request := by
    rintro t r s e failed ⟨name, message, rfl⟩
    cases failed
  update := by
    rintro n f s e failed ⟨name, message, rfl⟩
    simp only [unreachable, memoryStore] at failed
    split at failed <;> cases failed
  putOrUpdate := by
    rintro n v f s e failed
    cases failed

end Sample

open Sample in
theorem plan_validated_sample :
    planner.plan memoryStore twins there {} .epoch ∅ =
        (.error (.plan (.sharedIdentity "A" "a")), ∅) ∧
      ∃ plan s', planner.plan memoryStore wanted there {} .epoch ∅ = (.ok plan, s') ∧
        ∀ c ∈ plan.commands, ∀ t x e,
          (c.execute (Action.behaviour unreachable) t x).1 = .error e → ¬ e.IsMisconfigured := by
  have refused : Refused planner.target twins {} (.sharedIdentity "A" "a") :=
    .module ⟨[running "A" "a:1"], { running "a" "a:1" with type := "vm" }, [], rfl,
      ⟨List.nodup_singleton _, fun m hm => List.mem_singleton.1 hm ▸
        ⟨⟨"docker", by decide, by decide⟩, ⟨"a:1", rfl, by decide⟩⟩⟩,
      .shared (List.mem_singleton_self _) (by decide) fun m hm _ => List.mem_singleton.1 hm⟩
  have plannable : Plannable planner.target wanted {} :=
    (validate_ok_iff planner wanted {}).1 (by decide)
  obtain ⟨-, faults, -⟩ := plan_validated planner memoryStore twins there {} .epoch ∅
  obtain ⟨plans, -, sound⟩ := plan_validated planner memoryStore wanted there {} .epoch ∅
  obtain ⟨plan, s', planned⟩ := plans.2 plannable
  exact ⟨(faults _ _).2 ⟨rfl, _, rfl, refused⟩, plan, s', planned, fun c hc =>
    (sound plan s' planned c hc).2 States unreachable unreachable_failsWith⟩

end Planner
end Steward
