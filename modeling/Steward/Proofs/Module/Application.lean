/-
# Applying a difference

A difference names every module that changes once (`Diff.names`): the names of what is created, of
what is updated and of what is removed have none in common. Applied to the set it was taken against,
it takes what stands under these names from the other set and leaves all else as it is
(`ModuleSet.get?_apply_diff`), so it gives the other set, observations aside. It names as many
modules as there are names on which the two sets disagree, and none if they are the same.

Key definitions: `Diff.names`.
Key theorems: `ModuleSet.same_iff_agree`, `ModuleSet.get?_apply_diff`, `ModuleSet.mem_names_diff_iff`,
`ModuleSet.diff_laws`.
-/
import Mathlib.Data.List.Nodup
import Mathlib.Data.Set.Card
import Steward.Proofs.Module.Difference

namespace Steward

/-! ### Equality is symmetric -/

theorem Number.same_comm (a b : Number) : a.same b = b.same a := by
  cases a <;> cases b <;>
    simp only [Number.same, Binary64.same, Bool.beq_comm, Bool.and_comm]

namespace Json

mutual

theorem same_comm : ∀ a b : Json, a.same b = b.same a
  | a, b => by
    cases a <;> cases b <;> simp only [same]
    · exact Bool.beq_comm
    · exact Number.same_comm _ _
    · exact Bool.beq_comm
    · exact sameItems_comm _ _
    · exact sameFields_comm _ _

theorem sameItems_comm : ∀ as bs : List Json, sameItems as bs = sameItems bs as
  | [], [] | [], _ :: _ | _ :: _, [] => rfl
  | a :: as, b :: bs => by rw [sameItems, sameItems, same_comm a b, sameItems_comm as bs]

theorem sameFields_comm : ∀ as bs : List (String × Json), sameFields as bs = sameFields bs as
  | [], [] | [], _ :: _ | _ :: _, [] => rfl
  | (j, a) :: as, (k, b) :: bs => by
    rw [sameFields, sameFields, same_comm a b, sameFields_comm as bs, Bool.beq_comm]

end

end Json

theorem Module.same_comm (a b : Module) : a.same b = b.same a := by
  simp only [same, Bool.beq_comm, Json.same_comm a.config]

namespace ModuleSet

theorem agree_comm (x y : Option Module) : Agree x y ↔ Agree y x := by
  cases x <;> cases y <;> simp only [Agree]
  rw [Module.same_comm]

theorem agree_refl (x : Option Module) : Agree x x := by
  cases x with
  | none => trivial
  | some m => exact m.same_refl

/-- In lists that agree place by place each module has its like. -/
theorem exists_like : ∀ {as bs : List Module}, sameList as bs = true → ∀ a ∈ as,
    ∃ b ∈ bs, a.same b = true
  | [], _, _, _, ha => nomatch ha
  | _ :: _, [], h, _, _ => nomatch h
  | a :: as, b :: bs, h, a', ha => by
    rw [sameList, Bool.and_eq_true] at h
    rcases List.mem_cons.1 ha with rfl | ha
    · exact ⟨b, List.mem_cons_self, h.1⟩
    · obtain ⟨b', hb, like⟩ := exists_like h.2 a' ha
      exact ⟨b', List.mem_cons_of_mem _ hb, like⟩

theorem sameList_comm : ∀ as bs : List Module, sameList as bs = sameList bs as
  | [], [] | [], _ :: _ | _ :: _, [] => rfl
  | a :: as, b :: bs => by rw [sameList, sameList, Module.same_comm a b, sameList_comm as bs]

theorem same_comm (a b : ModuleSet) : a.same b = b.same a :=
  sameList_comm a.toList b.toList

/-- A module of one of two sets that are the same has its like under its name in the other. -/
theorem get?_of_same {a b : ModuleSet} (h : a.same b = true) {n : String} {m : Module}
    (there : a.get? n = some m) : ∃ m', b.get? n = some m' ∧ m.same m' = true := by
  obtain rfl := a.name_of_get? there
  obtain ⟨m', hm', like⟩ := exists_like h m (a.mem_toList_iff.2 there)
  have name : m.name = m'.name := by
    simp only [Module.same, Bool.and_eq_true, beq_iff_eq] at like
    exact like.1.1.1.1.1
  exact ⟨m', name ▸ b.mem_toList_iff.1 hm', like⟩

/-- Two sets are the same exactly if they agree on every name. -/
theorem same_iff_agree (a b : ModuleSet) :
    a.same b = true ↔ ∀ n, Agree (a.get? n) (b.get? n) := by
  constructor
  · intro h n
    cases ha : a.get? n with
    | some m =>
      obtain ⟨m', hb, like⟩ := get?_of_same h ha
      rw [hb, Agree, Module.same_comm]
      exact like
    | none =>
      cases hb : b.get? n with
      | none => trivial
      | some m =>
        obtain ⟨m', ha', -⟩ := get?_of_same ((same_comm b a).trans h) hb
        rw [ha] at ha'
        cases ha'
  · intro h
    exact same_of_agree fun n => (agree_comm _ _).1 (h n)

end ModuleSet

/-! ### The names of a difference -/

/-- The names that are removed, created or updated. -/
def Diff.names (d : Diff) : List String := d.removed ++ (d.created ++ d.updated).map Module.name

namespace Diff

variable (d : Diff)

theorem touches_iff (n : String) : d.touches n = true ↔ n ∈ d.names := by
  simp [touches, names]

theorem length_names : d.names.length = d.total := by
  simp [names, total, Nat.add_comm]

theorem isEmpty_iff : d.isEmpty = true ↔ d.names = [] := by
  simp [isEmpty, names, and_comm]

end Diff

namespace ModuleSet

variable (a b : ModuleSet)

/-- A difference names exactly the modules on which the two sets disagree. -/
theorem mem_names_diff_iff (n : String) :
    n ∈ (a.diff b).names ↔ ¬ Agree (a.get? n) (b.get? n) :=
  ((a.diff b).touches_iff n).symm.trans (a.touches_diff_iff b n)

/-! What is created is not in the other set, what is updated is in both, and what is removed is not
in the one set. -/

theorem disjoint_created_updated :
    ((a.diff b).created.map Module.name).Disjoint ((a.diff b).updated.map Module.name) := by
  intro n hc hu
  obtain ⟨m, hm, rfl⟩ := List.mem_map.1 hc
  obtain ⟨m', hm', name⟩ := List.mem_map.1 hu
  have absent := ((a.mem_created_iff b).1 hm).2
  obtain ⟨-, old, there, -⟩ := (a.mem_updated_iff b).1 hm'
  rw [name, absent] at there
  cases there

theorem disjoint_created_removed :
    ((a.diff b).created.map Module.name).Disjoint (a.diff b).removed := by
  intro n hc hr
  obtain ⟨m, hm, rfl⟩ := List.mem_map.1 hc
  have undesired := ((a.mem_gone_iff b).1 hr).1
  rw [((a.mem_created_iff b).1 hm).1] at undesired
  cases undesired

theorem disjoint_updated_removed :
    ((a.diff b).updated.map Module.name).Disjoint (a.diff b).removed := by
  intro n hu hr
  obtain ⟨m, hm, rfl⟩ := List.mem_map.1 hu
  have undesired := ((a.mem_gone_iff b).1 hr).1
  rw [((a.mem_updated_iff b).1 hm).1] at undesired
  cases undesired

theorem nodup_changed : (((a.diff b).created ++ (a.diff b).updated).map Module.name).Nodup := by
  rw [List.map_append]
  exact List.nodup_append'.2 ⟨(a.ascending_created b).imp String.ne_of_lt,
    (a.ascending_updated b).imp String.ne_of_lt, a.disjoint_created_updated b⟩

/-- A difference names every module once. -/
theorem nodup_names_diff : (a.diff b).names.Nodup := by
  refine List.nodup_append'.2
    ⟨(a.ascending_removed b).imp String.ne_of_lt, a.nodup_changed b, fun n hr hc => ?_⟩
  rw [List.map_append] at hc
  rcases List.mem_append.1 hc with hc | hu
  · exact a.disjoint_created_removed b hc hr
  · exact a.disjoint_updated_removed b hu hr

/-- There are as many names on which the sets disagree as the difference has changes. -/
theorem encard_disagree :
    {n | ¬ Agree (a.get? n) (b.get? n)}.encard = (a.diff b).total := by
  have names : {n | ¬ Agree (a.get? n) (b.get? n)} = ((a.diff b).names.toFinset : Set String) := by
    ext n
    simp [← mem_names_diff_iff]
  rw [names, Set.encard_coe_eq_coe_finsetCard,
    List.toFinset_card_of_nodup (a.nodup_names_diff b), Diff.length_names]

/-! ### Application -/

variable {a b}

theorem get?_insert (s : ModuleSet) (m : Module) (n : String) :
    (s.insert m).get? n = if n = m.name then some m else s.get? n :=
  s.modules.get?_insert m.name n m

theorem get?_erase (s : ModuleSet) (k n : String) :
    (s.erase k).get? n = if n = k then none else s.get? n :=
  s.modules.get?_erase k n

theorem get?_foldl_erase (n : String) : ∀ (ks : List String) (s : ModuleSet),
    (ks.foldl erase s).get? n = if n ∈ ks then none else s.get? n
  | [], _ => by simp
  | k :: ks, s => by
    rw [List.foldl_cons, get?_foldl_erase n ks, get?_erase]
    by_cases later : n ∈ ks
    · simp [later]
    · simp [later]

theorem get?_foldl_insert_of_not_mem {n : String} : ∀ (ms : List Module) (s : ModuleSet),
    n ∉ ms.map Module.name → (ms.foldl insert s).get? n = s.get? n
  | [], _, _ => rfl
  | m :: ms, s, h => by
    rw [List.map_cons, List.mem_cons, not_or] at h
    rw [List.foldl_cons, get?_foldl_insert_of_not_mem ms _ h.2, get?_insert, if_neg h.1]

/-- Of modules with names of their own each is found after they were put in. -/
theorem get?_foldl_insert_of_mem {m : Module} : ∀ (ms : List Module) (s : ModuleSet),
    (ms.map Module.name).Nodup → m ∈ ms → (ms.foldl insert s).get? m.name = some m
  | [], _, _, hm => nomatch hm
  | m' :: ms, s, nodup, hm => by
    rw [List.map_cons, List.nodup_cons] at nodup
    rw [List.foldl_cons]
    rcases List.mem_cons.1 hm with rfl | hm
    · rw [get?_foldl_insert_of_not_mem ms _ nodup.1, get?_insert, if_pos rfl]
    · exact get?_foldl_insert_of_mem ms _ nodup.2 hm

/-- Applied to the set it was taken against, a difference takes what it names from the other set and
leaves all else. -/
theorem get?_apply_diff (a b : ModuleSet) (n : String) :
    (b.apply (a.diff b)).get? n = if n ∈ (a.diff b).names then a.get? n else b.get? n := by
  rw [apply]
  by_cases changed : n ∈ ((a.diff b).created ++ (a.diff b).updated).map Module.name
  · have named : n ∈ (a.diff b).names := List.mem_append_right _ changed
    rw [if_pos named]
    obtain ⟨m, hm, rfl⟩ := List.mem_map.1 changed
    have desired : a.get? m.name = some m := by
      rcases List.mem_append.1 hm with hc | hu
      · exact ((a.mem_created_iff b).1 hc).1
      · exact ((a.mem_updated_iff b).1 hu).1
    rw [get?_foldl_insert_of_mem _ _ (a.nodup_changed b) hm, desired]
  · rw [get?_foldl_insert_of_not_mem _ _ changed, get?_foldl_erase]
    by_cases gone : n ∈ (a.diff b).removed
    · have named : n ∈ (a.diff b).names := List.mem_append_left _ gone
      rw [if_pos gone, if_pos named, ((a.mem_gone_iff b).1 gone).1]
    · have unnamed : n ∉ (a.diff b).names := fun h => (List.mem_append.1 h).elim gone changed
      rw [if_neg gone, if_neg unnamed]

/-- A set becomes the other, observations aside, when the difference is applied. -/
theorem same_apply_diff (a b : ModuleSet) : (b.apply (a.diff b)).same a = true := by
  refine same_of_agree fun n => ?_
  rw [get?_apply_diff]
  by_cases named : n ∈ (a.diff b).names
  · rw [if_pos named]
    exact agree_refl _
  · rw [if_neg named]
    rwa [mem_names_diff_iff, not_not] at named

/-- A difference is empty exactly if there is none. -/
theorem isEmpty_diff_iff (a b : ModuleSet) : (a.diff b).isEmpty = true ↔ a.same b = true := by
  rw [Diff.isEmpty_iff, List.eq_nil_iff_forall_not_mem, same_iff_agree]
  exact forall_congr' fun n => by rw [mem_names_diff_iff, not_not]

/-- **Laws of the difference.** Let `d` be what has to change in `b` for it to become `a`. Applied
to `b` it gives `a`, observations aside. The names in its three lists have none in common, and each
list ascends strictly. It touches exactly the names on which the two sets disagree, one set having
none or the modules being unequal, and it has as many changes as there are such names. It is empty
exactly if the sets are the same. -/
theorem diff_laws (a b : ModuleSet) :
    (b.apply (a.diff b)).same a = true ∧
    (((a.diff b).created.map Module.name).Disjoint ((a.diff b).updated.map Module.name) ∧
      ((a.diff b).created.map Module.name).Disjoint (a.diff b).removed ∧
      ((a.diff b).updated.map Module.name).Disjoint (a.diff b).removed) ∧
    (((a.diff b).created.map Module.name).Pairwise (· < ·) ∧
      ((a.diff b).updated.map Module.name).Pairwise (· < ·) ∧
      (a.diff b).removed.Pairwise (· < ·)) ∧
    (∀ n, (a.diff b).touches n = true ↔ ¬ Agree (a.get? n) (b.get? n)) ∧
    {n | ¬ Agree (a.get? n) (b.get? n)}.encard = (a.diff b).total ∧
    ((a.diff b).isEmpty = true ↔ a.same b = true) :=
  ⟨same_apply_diff a b,
    ⟨disjoint_created_updated a b, disjoint_created_removed a b, disjoint_updated_removed a b⟩,
    ⟨ascending_created a b, ascending_updated a b, ascending_removed a b⟩,
    touches_diff_iff a b, encard_disagree a b, isEmpty_diff_iff a b⟩

end ModuleSet
end Steward
